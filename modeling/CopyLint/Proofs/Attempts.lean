import Mathlib.Data.List.Forall2

/-! Computations that can fail, and lists of them. What is made of a list stands for its members one
by one, so that a list of results is described by a relation between the two lists. -/
namespace CopyLint

variable {α β γ ε ε' : Type}

section

variable {x : Except ε α}

theorem map_eq_error_iff {f : α → β} {cause : ε} : f <$> x = .error cause ↔ x = .error cause := by
  cases x <;> simp [Functor.map, Except.map]

theorem map_eq_ok_iff {f : α → β} {b : β} : f <$> x = .ok b ↔ ∃ a, x = .ok a ∧ f a = b := by
  cases x <;> simp [Functor.map, Except.map]

theorem bind_eq_ok_iff {f : α → Except ε β} {b : β} :
    x >>= f = .ok b ↔ ∃ a, x = .ok a ∧ f a = .ok b := by
  cases x <;> simp [bind, Except.bind]

theorem bind_eq_error_iff {f : α → Except ε β} {e : ε} :
    x >>= f = .error e ↔ x = .error e ∨ ∃ a, x = .ok a ∧ f a = .error e := by
  cases x <;> simp [bind, Except.bind]

theorem mapError_eq_ok_iff {wrap : ε → ε'} {a : α} : x.mapError wrap = .ok a ↔ x = .ok a := by
  cases x <;> simp [Except.mapError]

theorem toOption_eq_some_iff {a : α} : x.toOption = some a ↔ x = .ok a := by
  cases x <;> simp [Except.toOption]

theorem isOk_bind {f : α → Except ε β} {b : Bool} (h : ∀ a, x = .ok a → (f a).isOk = b) :
    (x >>= f).isOk = (x.isOk && b) := by
  cases x with
  | error e => rfl
  | ok a => exact (h a rfl).trans (Bool.true_and b).symm

theorem isOk_iff_exists : x.isOk = true ↔ ∃ a, x = .ok a := by
  cases x <;> simp [Except.isOk, Except.toBool]

theorem isOk_map (g : α → β) : (g <$> x).isOk = x.isOk := by
  cases x <;> rfl

theorem isOk_mapError (wrap : ε → ε') : (x.mapError wrap).isOk = x.isOk := by
  cases x <;> rfl

end

section

variable {as : List α} {bs : List β}

theorem exists_of_forall₂ {R : α → β → Prop} (h : as.Forall₂ R bs) {b : β} (hb : b ∈ bs) :
    ∃ a ∈ as, R a b := by
  induction h with
  | nil => cases hb
  | cons hfirst _ ih =>
    obtain rfl | hb := List.mem_cons.mp hb
    · exact ⟨_, List.mem_cons_self, hfirst⟩
    · obtain ⟨a, ha, hab⟩ := ih hb
      exact ⟨a, List.mem_cons_of_mem _ ha, hab⟩

theorem mapM_eq_some_iff {f : α → Option β} :
    as.mapM f = some bs ↔ as.Forall₂ (fun a b => f a = some b) bs := by
  induction as generalizing bs with
  | nil => cases bs <;> simp
  | cons a rest ih =>
    rw [List.mapM_cons, List.forall₂_cons_left_iff]
    cases f a with
    | none => simp
    | some b =>
      cases hrest : rest.mapM f with
      | none => simp [← ih, hrest]
      | some others => simp [← ih, hrest, eq_comm]

theorem isSome_mapM_iff {f : α → Option β} : (as.mapM f).isSome ↔ ∀ a ∈ as, (f a).isSome := by
  induction as with
  | nil => simp
  | cons a rest ih =>
    rw [List.mapM_cons, List.forall_mem_cons, ← ih]
    cases f a <;> cases rest.mapM f <;> simp

theorem mem_of_mapM_eq_some {f : α → Option β} (h : as.mapM f = some bs) :
    ∀ b ∈ bs, ∃ a ∈ as, f a = some b :=
  fun _ => exists_of_forall₂ (mapM_eq_some_iff.mp h)

theorem exists_mapM_of_forall {R : β → γ → Prop} {f : α → Option β} {g : α → Option γ}
    (hf : as.mapM f = some bs) (h : ∀ a ∈ as, ∀ b, f a = some b → ∃ c, g a = some c ∧ R b c) :
    ∃ cs, as.mapM g = some cs ∧ bs.Forall₂ R cs := by
  induction mapM_eq_some_iff.mp hf with
  | nil => exact ⟨[], rfl, .nil⟩
  | cons hfirst hothers ih =>
    rw [List.forall_mem_cons] at h
    obtain ⟨c, hc, hrel⟩ := h.1 _ hfirst
    obtain ⟨cs, hcs, hrest⟩ := ih (mapM_eq_some_iff.mpr hothers) h.2
    exact ⟨c :: cs, by simp [hc, hcs], .cons hrel hrest⟩

theorem forall₂_of_mapM {R : β → γ → Prop} {f : α → Option β} {g : α → Option γ} {cs : List γ}
    (hf : as.mapM f = some bs) (hg : as.mapM g = some cs)
    (h : ∀ a ∈ as, ∀ b c, f a = some b → g a = some c → R b c) : bs.Forall₂ R cs := by
  have hsome := isSome_mapM_iff.mp (Option.isSome_of_eq_some hg)
  obtain ⟨cs', hcs', hrel⟩ := exists_mapM_of_forall (R := R) hf fun a ha b hb => by
    obtain ⟨c, hc⟩ := Option.isSome_iff_exists.mp (hsome a ha)
    exact ⟨c, hc, h a ha b c hb hc⟩
  cases hcs'.symm.trans hg
  exact hrel

theorem toOption_mapM (f : α → Except ε β) (as : List α) :
    (as.mapM f).toOption = as.mapM fun a => (f a).toOption := by
  induction as with
  | nil => rfl
  | cons a rest ih =>
    rw [List.mapM_cons, List.mapM_cons, ← ih]
    cases f a with
    | error e => rfl
    | ok b => cases rest.mapM f <;> rfl

variable {f : α → Except ε β}

theorem mapM_eq_ok_iff : as.mapM f = .ok bs ↔ as.Forall₂ (fun a b => f a = .ok b) bs := by
  rw [← toOption_eq_some_iff, toOption_mapM, mapM_eq_some_iff]
  simp only [toOption_eq_some_iff]

theorem mapM_eq_ok_map {g : α → β} (h : ∀ a ∈ as, f a = .ok (g a)) :
    as.mapM f = .ok (as.map g) := by
  rw [mapM_eq_ok_iff, List.forall₂_map_right_iff, List.forall₂_same]
  exact h

theorem exists_mapM_eq_ok {R : α → β → Prop} (h : ∀ a ∈ as, ∃ b, f a = .ok b ∧ R a b) :
    ∃ bs, as.mapM f = .ok bs ∧ as.Forall₂ R bs := by
  induction as with
  | nil => exact ⟨[], rfl, .nil⟩
  | cons a rest ih =>
    rw [List.forall_mem_cons] at h
    obtain ⟨b, hb, hfirst⟩ := h.1
    obtain ⟨bs, hbs, hrest⟩ := ih h.2
    refine ⟨b :: bs, ?_, .cons hfirst hrest⟩
    rw [List.mapM_cons, hb, hbs]
    rfl

theorem exists_mem_of_mapM_eq_ok (h : as.mapM f = .ok bs) {b : β} (hb : b ∈ bs) :
    ∃ a ∈ as, f a = .ok b :=
  exists_of_forall₂ (mapM_eq_ok_iff.mp h) hb

theorem exists_of_mapM_eq_ok (h : as.mapM f = .ok bs) : ∀ a ∈ as, ∃ b, f a = .ok b := by
  intro a ha
  obtain ⟨b, -, hb⟩ := exists_of_forall₂ (mapM_eq_ok_iff.mp h).flip ha
  exact ⟨b, hb⟩

theorem exists_mem_of_mapM_eq_error {e : ε} (h : as.mapM f = .error e) :
    ∃ a ∈ as, f a = .error e := by
  induction as with
  | nil => cases h
  | cons a rest ih =>
    rw [List.mapM_cons] at h
    obtain ha | ⟨b, -, h⟩ := bind_eq_error_iff.mp h
    · exact ⟨a, List.mem_cons_self, ha⟩
    · obtain hrest | ⟨bs, -, h⟩ := bind_eq_error_iff.mp h
      · obtain ⟨failed, hmem, hfailed⟩ := ih hrest
        exact ⟨failed, List.mem_cons_of_mem a hmem, hfailed⟩
      · cases h

theorem isOk_mapM : (as.mapM f).isOk = as.all fun a => (f a).isOk := by
  induction as with
  | nil => rfl
  | cons a rest ih =>
    rw [List.mapM_cons, List.all_cons, ← ih, isOk_bind]
    intro b _
    rw [bind_pure_comp, isOk_map]

end

theorem mapM_map_eq {m : Type → Type} [Monad m] [LawfulMonad m] (f : α → β → γ) (c : α → m β)
    (as : List α) : (as.mapM fun a => f a <$> c a) = as.zipWith f <$> as.mapM c := by
  induction as with
  | nil => simp
  | cons a rest ih => simp [List.mapM_cons, ih]

end CopyLint
