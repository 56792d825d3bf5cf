/-! Merge sort leaves members that tie in the order in which they came, and what it makes of a part
of a list is a part of what it makes of the list. Where no two members tie, the order in which they
came makes no difference. Sorted by a key, with members of one key in the order in which they came,
there is one list only, so it does not matter how a list is sorted. -/
namespace CopyLint

section

variable {α : Type} {le : α → α → Bool}
  (htrans : ∀ a b c, le a b = true → le b c = true → le a c = true)
  (htotal : ∀ a b, (le a b || le b a) = true)

include htrans htotal

theorem filter_mergeSort_of_tied {tied : α → Bool}
    (htied : ∀ a b, tied a = true → tied b = true → le a b = true) (as : List α) :
    (as.mergeSort le).filter tied = as.filter tied := by
  have hinOrder : (as.filter tied).Pairwise fun a b => le a b = true := by
    apply List.pairwise_of_forall_mem_list
    intro a ha b hb
    exact htied a b (List.mem_filter.mp ha).2 (List.mem_filter.mp hb).2
  have hkept : (as.filter tied).Sublist ((as.mergeSort le).filter tied) := by
    have hsublist := List.sublist_mergeSort htrans htotal hinOrder List.filter_sublist
    simpa using hsublist.filter tied
  exact (hkept.eq_of_length ((List.mergeSort_perm as le).filter tied).length_eq.symm).symm

/-- A first member goes behind those that have to stand before it, and before all others. -/
theorem mergeSort_cons_eq (a : α) (as : List α) :
    (a :: as).mergeSort le =
      (as.mergeSort le).filter (fun b => !le a b) ++ a :: (as.mergeSort le).filter (le a) := by
  obtain ⟨before, behind, hcons, hrest, hbefore⟩ := List.mergeSort_cons htrans htotal a as
  have hsorted := List.pairwise_mergeSort htrans htotal (a :: as)
  rw [hcons, List.pairwise_append, List.pairwise_cons] at hsorted
  have hbehind : ∀ b ∈ behind, le a b = true := hsorted.2.1.1
  have hnone : behind.filter (fun b => !le a b) = [] := by simpa using hbehind
  have hnone' : before.filter (le a) = [] := by simpa using hbefore
  rw [hcons, hrest, List.filter_append, List.filter_append, List.filter_eq_self.mpr hbefore,
    List.filter_eq_self.mpr hbehind, hnone, hnone', List.append_nil, List.nil_append]

theorem sublist_mergeSort_of_sublist {as bs : List α} (h : as.Sublist bs) :
    (as.mergeSort le).Sublist (bs.mergeSort le) := by
  induction h with
  | slnil => exact .refl _
  | cons b _ ih =>
    obtain ⟨before, behind, hcons, hrest, -⟩ := List.mergeSort_cons htrans htotal b _
    rw [hcons]
    rw [hrest] at ih
    exact ih.middle b
  | cons_cons a _ ih =>
    rw [mergeSort_cons_eq htrans htotal, mergeSort_cons_eq htrans htotal]
    exact (ih.filter _).append ((ih.filter _).cons_cons a)

theorem mergeSort_eq_of_perm {as bs : List α} (h : as.Perm bs)
    (hantisymm : ∀ a ∈ as, ∀ b ∈ as, le a b = true → le b a = true → a = b) :
    as.mergeSort le = bs.mergeSort le := by
  have hperm : (as.mergeSort le).Perm (bs.mergeSort le) :=
    (List.mergeSort_perm as le).trans (h.trans (List.mergeSort_perm bs le).symm)
  refine List.Perm.eq_of_pairwise ?_ (List.pairwise_mergeSort htrans htotal as)
    (List.pairwise_mergeSort htrans htotal bs) hperm
  intro a b ha hb
  exact hantisymm a (List.mem_mergeSort.mp ha) b (h.mem_iff.mpr (List.mem_mergeSort.mp hb))

end

/-! Orders of keys. -/

structure IsOrder {κ : Type} (Le : κ → κ → Prop) : Prop where
  trans : ∀ {a b c}, Le a b → Le b c → Le a c
  total : ∀ a b, Le a b ∨ Le b a
  antisymm : ∀ {a b}, Le a b → Le b a → a = b

theorem IsOrder.refl {κ : Type} {Le : κ → κ → Prop} (h : IsOrder Le) (a : κ) : Le a a :=
  (h.total a a).elim id id

/-- A text decides, and where it is the same, the rest. -/
theorem isOrder_text {κ : Type} {text : κ → String} {Rest : κ → κ → Prop}
    (htrans : ∀ {a b c}, Rest a b → Rest b c → Rest a c) (htotal : ∀ a b, Rest a b ∨ Rest b a)
    (hantisymm : ∀ {a b}, text a = text b → Rest a b → Rest b a → a = b) :
    IsOrder fun a b => text a < text b ∨ text a = text b ∧ Rest a b where
  trans := by
    rintro a b c (hab | ⟨hab, hrest⟩) (hbc | ⟨hbc, hrest'⟩)
    · exact .inl (String.lt_trans hab hbc)
    · exact .inl (hbc ▸ hab)
    · exact .inl (hab ▸ hbc)
    · exact .inr ⟨hab.trans hbc, htrans hrest hrest'⟩
  total := by
    intro a b
    by_cases hlt : text a < text b
    · exact .inl (.inl hlt)
    · by_cases hgt : text b < text a
      · exact .inr (.inl hgt)
      · have heq : text a = text b :=
          String.le_antisymm (String.not_lt.mp hgt) (String.not_lt.mp hlt)
        exact (htotal a b).imp (fun h => .inr ⟨heq, h⟩) fun h => .inr ⟨heq.symm, h⟩
  antisymm := by
    rintro a b (hab | ⟨heq, hrest⟩) (hba | ⟨heq', hrest'⟩)
    · exact absurd hba (String.lt_asymm hab)
    · exact absurd (heq' ▸ hab) (String.lt_irrefl _)
    · exact absurd (heq ▸ hba) (String.lt_irrefl _)
    · exact hantisymm heq hrest hrest'

/-! Lists sorted by a key. -/

/-- The members in the order of their keys, where those of one key keep their order. -/
structure StableSort {α κ : Type} [DecidableEq κ] (key : α → κ) (Le : κ → κ → Prop)
    (found sorted : List α) : Prop where
  perm : sorted.Perm found
  ordered : sorted.Pairwise fun a b => Le (key a) (key b)
  stable : ∀ k, sorted.filter (fun a => key a = k) = found.filter fun a => key a = k

section

variable {α κ : Type} {key : α → κ} {Le : κ → κ → Prop}

theorem mem_iff_of_filter_key_eq [DecidableEq κ] {as bs : List α}
    (h : ∀ k, as.filter (fun a => key a = k) = bs.filter fun a => key a = k) (a : α) :
    a ∈ as ↔ a ∈ bs := by
  have hiff := congrArg (a ∈ ·) (h (key a))
  simpa using hiff

theorem IsOrder.le_head (hLe : IsOrder Le) {first : α} {rest : List α}
    (h : (first :: rest).Pairwise fun a b => Le (key a) (key b)) {a : α}
    (hmem : a ∈ first :: rest) : Le (key first) (key a) := by
  rcases List.mem_cons.mp hmem with rfl | hmem
  · exact hLe.refl _
  · exact (List.pairwise_cons.mp h).1 a hmem

/-- A list in order is put together from the members of each key in one way only. -/
theorem IsOrder.eq_of_filter_key_eq [DecidableEq κ] (hLe : IsOrder Le) {as bs : List α}
    (has : as.Pairwise fun a b => Le (key a) (key b))
    (hbs : bs.Pairwise fun a b => Le (key a) (key b))
    (h : ∀ k, as.filter (fun a => key a = k) = bs.filter fun a => key a = k) : as = bs := by
  have hmem := mem_iff_of_filter_key_eq h
  induction as generalizing bs with
  | nil =>
    cases bs with
    | nil => rfl
    | cons b rest => exact absurd ((hmem b).mpr List.mem_cons_self) List.not_mem_nil
  | cons a rest ih =>
    cases bs with
    | nil => exact absurd ((hmem a).mp List.mem_cons_self) List.not_mem_nil
    | cons b rest' =>
      -- Neither head can stand behind the other, so both are the first member of one key.
      have hkey : key a = key b := hLe.antisymm (hLe.le_head has ((hmem b).mpr List.mem_cons_self))
        (hLe.le_head hbs ((hmem a).mp List.mem_cons_self))
      have hheads := h (key a)
      rw [List.filter_cons_of_pos (by simp), List.filter_cons_of_pos (by simp [hkey])] at hheads
      obtain ⟨rfl, htails⟩ := List.cons.inj hheads
      have hrest : ∀ k, rest.filter (fun a => key a = k) = rest'.filter fun a => key a = k := by
        intro k
        by_cases heq : key a = k
        · exact heq ▸ htails
        · have hk := h k
          rwa [List.filter_cons_of_neg (by simpa using heq),
            List.filter_cons_of_neg (by simpa using heq)] at hk
      rw [ih (List.pairwise_cons.mp has).2 (List.pairwise_cons.mp hbs).2 hrest
        (mem_iff_of_filter_key_eq hrest)]

variable {le : α → α → Bool} (hle : ∀ a b, le a b = true ↔ Le (key a) (key b))

include hle

theorem IsOrder.le_trans (hLe : IsOrder Le) (a b c : α) (hab : le a b = true)
    (hbc : le b c = true) : le a c = true := by
  rw [hle] at hab hbc ⊢
  exact hLe.trans hab hbc

theorem IsOrder.le_total (hLe : IsOrder Le) (a b : α) : (le a b || le b a) = true := by
  rw [Bool.or_eq_true, hle, hle]
  exact hLe.total _ _

variable [DecidableEq κ]

theorem IsOrder.stableSort_mergeSort (hLe : IsOrder Le) (found : List α) :
    StableSort key Le found (found.mergeSort le) where
  perm := List.mergeSort_perm found le
  ordered := (List.pairwise_mergeSort (hLe.le_trans hle) (hLe.le_total hle) found).imp
    fun h => (hle _ _).mp h
  stable := by
    intro k
    apply filter_mergeSort_of_tied (hLe.le_trans hle) (hLe.le_total hle)
    intro a b ha hb
    rw [hle, of_decide_eq_true ha, of_decide_eq_true hb]
    exact hLe.refl k

theorem IsOrder.stableSort_iff (hLe : IsOrder Le) {found sorted : List α} :
    StableSort key Le found sorted ↔ found.mergeSort le = sorted := by
  constructor
  · intro h
    have hsorted := hLe.stableSort_mergeSort hle found
    apply hLe.eq_of_filter_key_eq hsorted.ordered h.ordered
    intro k
    rw [hsorted.stable, h.stable]
  · rintro rfl
    exact hLe.stableSort_mergeSort hle found

end

end CopyLint
