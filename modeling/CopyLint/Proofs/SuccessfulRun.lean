import CopyLint.Proofs.MemoHistory

/-! Runs that succeed. All that was ever on the stack is in the memo at the end, so that a run is not
disturbed by definitions that wait below it and do not come to stand there. Nor does it matter what
the index holds under the identity of the root: a run that looks there finds the root waiting and
fails. -/
namespace CopyLint

namespace Sizing

/-! The layout rules look up no more than the references that they meet. -/

variable {config : Config} {index index' : Index} {layoutOf : TypeDef → Sizing Layout}

theorem alignWith_agree {ref : TypeRef} (h : ∀ reference, ref.embedded = some reference →
      index'.find? reference.1 = index.find? reference.1) :
    alignWith config index' layoutOf ref = alignWith config index layoutOf ref := by
  induction ref with
  | named identity name =>
    have hfind := h (identity, name) rfl
    simp only [alignWith, Index.require, hfind]
  | array elem length ih => exact ih h
  | scalar | pointer | rawPointer | unsupported => rfl

theorem sizeWith_agree {ref : TypeRef} (h : ∀ reference, ref.embedded = some reference →
      index'.find? reference.1 = index.find? reference.1) :
    sizeWith config index' layoutOf ref = sizeWith config index layoutOf ref := by
  induction ref with
  | named identity name =>
    have hfind := h (identity, name) rfl
    simp only [sizeWith, Index.require, hfind]
  | array elem length ih =>
    have halign : alignWith config index' layoutOf elem = alignWith config index layoutOf elem :=
      alignWith_agree h
    simp only [sizeWith, ih h, halign]
  | scalar | pointer | rawPointer | unsupported => rfl

theorem placeFields_agree {fields : List Field} (h : ∀ reference ∈ references fields,
      index'.find? reference.1 = index.find? reference.1) (sofar : Layout) :
    fields.foldlM (placeField config index' layoutOf) sofar =
      fields.foldlM (placeField config index layoutOf) sofar := by
  induction fields generalizing sofar with
  | nil => rfl
  | cons field rest ih =>
    simp only [references_cons, List.mem_append, Option.mem_toList, or_imp, forall_and] at h
    have hplace : placeField config index' layoutOf sofar field =
        placeField config index layoutOf sofar field := by
      simp only [placeField, alignWith_agree h.1, sizeWith_agree h.1]
    rw [List.foldlM_cons, List.foldlM_cons, hplace]
    exact bind_congr (ih h.2)

theorem fieldLayout_agree {t : TypeDef} (h : ∀ reference ∈ references t.fields,
      index'.find? reference.1 = index.find? reference.1) :
    fieldLayout config index' layoutOf t = fieldLayout config index layoutOf t := by
  simp only [fieldLayout, placeFields_agree h]

end Sizing

namespace Progress

variable {config : Config} {index index' : Index} {memo later : Memo}
  {maker : String → Option TypeDef} {root : TypeDef} {p q : Progress} {below : List TypeDef}

theorem stack_of_finished (h : p.step config index = .finished) : p.stack = [] := by
  cases hstack : p.stack with
  | nil => rfl
  | cons top below =>
    rw [step_eq config index hstack] at h
    split at h
    · split at h
      · cases h
      · split at h <;> cases h
    · split at h <;> cases h

theorem not_mem_map_identity {stack : List TypeDef} {identity : String}
    (h : identity ∈ later.identities) (habsent : ∀ t ∈ stack, t.identity ∉ later.identities) :
    identity ∉ stack.map (·.identity) := by
  intro hmem
  obtain ⟨t, ht, rfl⟩ := List.mem_map.mp hmem
  exact habsent t ht h

theorem Kept.mem_of_run (hkept : p.Kept config index maker memo root)
    (hindexed : Indexed index maker memo root) (hrun : p.run config index = (.ok (), later)) :
    (∀ identity ∈ p.memo.identities, identity ∈ later.identities) ∧
      ∀ identity ∈ p.active, identity ∈ later.identities := by
  fun_induction Progress.run config index p with
  | case1 p hstep =>
    cases hrun
    rw [hkept.active_eq, stack_of_finished hstep]
    exact ⟨fun _ h => h, List.forall_mem_nil _⟩
  | case2 p cause hstep => cases hrun
  | case3 p q hstep ih =>
    obtain ⟨hmemo, hactive⟩ := ih (hkept.step hindexed hstep) hrun
    obtain ⟨top, below, hstack, hnext⟩ := step_next hstep
    obtain ⟨t, name, _, _, _, rfl⟩ | ⟨_, layout, _, rfl⟩ := hnext
    · exact ⟨hmemo, fun identity hmem => hactive identity (List.mem_cons_of_mem _ hmem)⟩
    · rw [settle_eq hkept.active_eq hkept.nodup hstack] at hmemo hactive
      simp only [Memo.mem_identities_insert, forall_eq_or_imp] at hmemo
      rw [hkept.active_eq, hstack, List.map_cons, List.forall_mem_cons]
      exact ⟨hmemo.2, hmemo.1, hactive⟩

/-! Definitions that wait below. -/

/-- The same progress, with more definitions below those on the stack. -/
def atop (p : Progress) (below : List TypeDef) : Progress :=
  ⟨p.stack ++ below, p.active ++ below.map (·.identity), p.memo⟩

theorem step_atop (hp : ∀ t ∈ p.stack, t.identity ∉ below.map (·.identity))
    (hq : ∀ t ∈ q.stack, t.identity ∉ below.map (·.identity))
    (h : p.step config index = .next q) :
    (p.atop below).step config index = .next (q.atop below) := by
  obtain ⟨top, rest, hstack, hnext⟩ := step_next h
  have hatop : (p.atop below).stack = top :: (rest ++ below) := by
    rw [atop, hstack, List.cons_append]
  have hmemo : (p.atop below).memo = p.memo := rfl
  rw [step_eq config index hatop, hmemo]
  obtain ⟨t, name, hpending, hfind, hactive, rfl⟩ | ⟨hpending, layout, hlayout, rfl⟩ := hnext
  · have hwaiting : t.identity ∉ (p.atop below).active := by
      rw [atop, List.mem_append, not_or]
      exact ⟨hactive, hq t List.mem_cons_self⟩
    simp only [hpending, hfind, hwaiting, if_false]
    rfl
  · have htop : top.identity ∉ below.map (·.identity) := hp top (hstack ▸ List.mem_cons_self)
    have hbelow : (below.map (·.identity)).filter (· ≠ top.identity) = below.map (·.identity) := by
      rw [List.filter_eq_self]
      intro identity hmem
      simpa using fun heq : identity = top.identity => htop (heq ▸ hmem)
    simp only [hpending, hlayout]
    simp only [settle, atop, List.filter_append, hbelow]

theorem Kept.run_atop (hkept : p.Kept config index maker memo root)
    (hindexed : Indexed index maker memo root) (hrun : p.run config index = (.ok (), later))
    (hbelow : ∀ t ∈ below, t.identity ∉ later.identities) :
    (p.atop below).run config index =
      Progress.run config index ⟨below, below.map (·.identity), later⟩ := by
  have hapart : ∀ {q : Progress}, q.Kept config index maker memo root →
      q.run config index = (.ok (), later) →
        ∀ t ∈ q.stack, t.identity ∉ below.map (·.identity) := by
    intro q hq hrun t ht
    have hactive : t.identity ∈ q.active := hq.active_eq ▸ List.mem_map_of_mem ht
    exact not_mem_map_identity ((hq.mem_of_run hindexed hrun).2 _ hactive) hbelow
  fun_induction Progress.run config index p with
  | case1 p hstep =>
    cases hrun
    rw [atop, hkept.active_eq, stack_of_finished hstep]
    rfl
  | case2 p cause hstep => cases hrun
  | case3 p q hstep ih =>
    have hq := hkept.step hindexed hstep
    have hrun' : p.run config index = (.ok (), later) := (run_next hstep).trans hrun
    rw [run_next (step_atop (hapart hkept hrun') (hapart hq hrun) hstep)]
    exact ih hq hrun

/-! Another definition in the place of the root. -/

theorem Kept.step_agree (hkept : p.Kept config index maker memo root)
    (hagree : ∀ identity, identity ≠ root.identity → index'.find? identity = index.find? identity)
    (h : p.step config index = .next q) : p.step config index' = .next q := by
  obtain ⟨top, below, hstack, hnext⟩ := step_next h
  have hroot : root.identity ∈ p.active := hkept.root_mem (by simp [hstack])
  rw [step_eq config index' hstack]
  obtain ⟨t, name, hpending, hfind, hactive, rfl⟩ | ⟨hpending, layout, hlayout, rfl⟩ := hnext
  · have hne : t.identity ≠ root.identity := fun heq => hactive (heq ▸ hroot)
    simp only [hpending, hagree _ hne, hfind, hactive, if_false]
  · have hknown : ∀ reference ∈ references top.fields,
        index'.find? reference.1 = index.find? reference.1 := by
      intro reference hmem
      apply hagree
      intro heq
      have hfound := Memo.isSome_find?_of_firstPending hpending reference hmem
      rw [heq, Memo.isSome_find?] at hfound
      exact hkept.absent _ hroot hfound
    simp only [hpending, Sizing.fieldLayout_agree hknown, hlayout]

theorem Kept.run_agree (hkept : p.Kept config index maker memo root)
    (hindexed : Indexed index maker memo root)
    (hagree : ∀ identity, identity ≠ root.identity → index'.find? identity = index.find? identity)
    (hrun : p.run config index = (.ok (), later)) : p.run config index' = (.ok (), later) := by
  fun_induction Progress.run config index p with
  | case1 p hstep =>
    have hstack := stack_of_finished hstep
    obtain ⟨stack, active, found⟩ := p
    subst hstack
    exact (run_nil active found).trans hrun
  | case2 p cause hstep => cases hrun
  | case3 p q hstep ih =>
    rw [run_next (hkept.step_agree hagree hstep)]
    exact ih (hkept.step hindexed hstep) hrun

theorem exists_kept_start (hmade : memo.Made config index maker) {t : TypeDef}
    (hnew : t.identity ∉ memo.identities) :
    ∃ maker', (start memo t).Kept config index maker' memo t ∧ Indexed index maker' memo t := by
  let maker' (identity : String) : Option TypeDef :=
    if (memo.find? identity).isSome then maker identity
    else if identity = t.identity then some t else index.find? identity
  have hmade' : memo.Made config index maker' :=
    hmade.congr fun identity hfound => if_pos hfound
  have hfresh : ∀ {identity}, identity ∉ memo.identities → maker' identity =
      if identity = t.identity then some t else index.find? identity :=
    fun habsent => if_neg (by simpa [Memo.isSome_find?] using habsent)
  refine ⟨maker', kept_start hmade' ((hfresh hnew).trans (if_pos rfl)) hnew, ?_⟩
  intro u hu habsent hne
  exact (hfresh habsent).trans ((if_neg hne).trans hu)

end Progress

namespace Sizing

variable {config : Config} {index index' : Index} {memo later : Memo}
  {maker : String → Option TypeDef} {t : TypeDef} {layout : Layout}

theorem run_of_layoutOf (hnew : t.identity ∉ memo.identities)
    (h : (layoutOf config index t).run memo = (.ok layout, later)) :
    (Progress.start memo t).run config index = (.ok (), later) := by
  have hlater := memo_layoutOf config index memo t
  rw [h, Memo.find?_eq_none_of_not_mem hnew] at hlater
  rw [layoutOf_run, Memo.find?_eq_none_of_not_mem hnew] at h
  cases hrun : (Progress.start memo t).run config index with
  | mk outcome found =>
    rw [hrun] at h hlater
    cases outcome with
    | ok => exact congrArg (Prod.mk _) hlater.symm
    | error cause => cases h

/-- A definition that can be laid out is laid out in the same way with any index that differs under
its own identity only. -/
theorem layoutOf_agree (hmade : memo.Made config index maker)
    (hagree : ∀ identity, identity ≠ t.identity → index'.find? identity = index.find? identity)
    (h : (layoutOf config index t).run memo = (.ok layout, later)) :
    (layoutOf config index' t).run memo = (.ok layout, later) := by
  by_cases hfound : t.identity ∈ memo.identities
  · rw [layoutOf_run] at h ⊢
    obtain ⟨found, hfound⟩ := Option.isSome_iff_exists.mp ((memo.isSome_find? _).mpr hfound)
    simpa only [hfound] using h
  · obtain ⟨maker', hkept, hindexed⟩ := Progress.exists_kept_start (t := t) hmade hfound
    have hrun := run_of_layoutOf hfound h
    have hrun' := hkept.run_agree hindexed hagree hrun
    rw [layoutOf_run, Memo.find?_eq_none_of_not_mem hfound] at h ⊢
    rw [hrun] at h
    rw [hrun']
    exact h

end Sizing

end CopyLint
