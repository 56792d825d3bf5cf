import Mathlib.Data.List.Chain
import Mathlib.Data.List.Nodup
import CopyLint.Layout.Progress
import CopyLint.Proofs.LayoutFailure
import CopyLint.Proofs.LayoutRules

/-! The run that lays out a stack of definitions. Its memo never holds anything but recursive
layouts, so the run lays out exactly the definitions that have one; where it fails, the cause
depends on the definitions and on the path to them and not on what the memo held. -/
namespace CopyLint

/-- Every layout in the memo is the recursive one. -/
def Memo.Correct (config : Config) (index : Index) (memo : Memo) : Prop :=
  ∀ identity layout, memo.find? identity = some layout → index.layout? config identity = some layout

/-- The later memo keeps every entry, and adds only the root or what the root reaches. -/
structure Memo.Grows (index : Index) (root : String) (memo later : Memo) : Prop where
  kept : ∀ identity ∈ memo.identities, identity ∈ later.identities
  added : ∀ identity ∈ later.identities, identity ∈ memo.identities ∨ index.Includes root identity

namespace Memo

variable {config : Config} {index : Index} {memo : Memo}

theorem correct_nil (config : Config) (index : Index) : Memo.Correct config index [] :=
  nofun

theorem Correct.isSome_layout? (hmemo : memo.Correct config index) {identity : String}
    (h : (memo.find? identity).isSome) : (index.layout? config identity).isSome := by
  obtain ⟨layout, hlayout⟩ := Option.isSome_iff_exists.mp h
  exact Option.isSome_of_eq_some (hmemo identity layout hlayout)

theorem Correct.insert (hmemo : memo.Correct config index) {identity : String} {layout : Layout}
    (hlayout : index.layout? config identity = some layout) :
    (memo.insert identity layout).Correct config index := by
  intro other found hfound
  by_cases hother : other = identity
  · subst hother
    rw [find?_insert_self] at hfound
    exact hlayout.trans hfound
  · rw [find?_insert_of_ne memo layout hother] at hfound
    exact hmemo other found hfound

@[simp] theorem mem_identities_insert {identity other : String} {layout : Layout} :
    other ∈ (memo.insert identity layout).identities ↔
      other = identity ∨ other ∈ memo.identities :=
  List.mem_cons

theorem Grows.refl (index : Index) (root : String) (memo : Memo) : memo.Grows index root memo :=
  ⟨fun _ h => h, fun _ h => .inl h⟩

theorem Grows.insert (index : Index) (root : String) (memo : Memo) (layout : Layout) :
    memo.Grows index root (memo.insert root layout) := by
  constructor
  · intro identity h
    exact mem_identities_insert.mpr (.inr h)
  · intro identity h
    rcases mem_identities_insert.mp h with rfl | h
    · exact .inr (.refl _)
    · exact .inl h

theorem Grows.trans {root inner : String} {later last : Memo}
    (hembeds : index.Embeds root inner) (h : memo.Grows index inner later)
    (h' : later.Grows index root last) : memo.Grows index root last := by
  constructor
  · intro identity hmem
    exact h'.kept identity (h.kept identity hmem)
  · intro identity hmem
    rcases h'.added identity hmem with hmem | hincludes
    · rcases h.added identity hmem with hmem | hincludes
      · exact .inl hmem
      · exact .inr (.of_embeds hembeds hincludes)
    · exact .inr hincludes

theorem Grows.of_embeds {root inner : String} {later : Memo} (hembeds : index.Embeds root inner)
    (h : memo.Grows index inner later) : memo.Grows index root later :=
  h.trans hembeds (.refl index root later)

end Memo

theorem find?_eq_some_of_imp {α : Type} {p q : α → Bool} {as : List α} {a : α}
    (h : as.find? p = some a) (hqp : ∀ a, q a → p a) (hq : q a) : as.find? q = some a := by
  obtain ⟨hp, before, after, hsplit, hbefore⟩ := List.find?_eq_some_iff_append.mp h
  refine List.find?_eq_some_iff_append.mpr ⟨hq, before, after, hsplit, ?_⟩
  intro b hb
  have hpb := hbefore b hb
  cases hqb : q b with
  | false => rfl
  | true => simp [hqp b hqb] at hpb

namespace Memo

variable {config : Config} {index : Index} {memo : Memo}

def firstPending (memo : Memo) (fields : List Field) : Option (String × String) :=
  (references fields).find? fun reference => (memo.find? reference.1).isNone

theorem firstPending_eq_some {fields : List Field} {reference : String × String}
    (h : memo.firstPending fields = some reference) :
    reference ∈ references fields ∧ reference.1 ∉ memo.identities := by
  refine ⟨List.mem_of_find?_eq_some h, ?_⟩
  have hnone := List.find?_some h
  rw [← memo.isSome_find?]
  simpa using hnone

theorem firstUnsized_of_firstPending (hmemo : memo.Correct config index) {fields : List Field}
    {reference : String × String} (h : memo.firstPending fields = some reference)
    (hnone : index.layout? config reference.1 = none) :
    index.firstUnsized config fields = some reference := by
  refine find?_eq_some_of_imp h (fun other hother => ?_) (by simp [hnone])
  cases hfind : memo.find? other.1 with
  | none => rfl
  | some layout =>
    rw [hmemo _ _ hfind] at hother
    cases hother

theorem isSome_find?_of_firstPending {fields : List Field} (h : memo.firstPending fields = none) :
    ∀ reference ∈ references fields, (memo.find? reference.1).isSome := by
  intro reference hmem
  have hnot := List.find?_eq_none.mp h reference hmem
  simpa [Option.isSome_iff_ne_none] using hnot

theorem firstUnsized_of_firstPending_eq_none (hmemo : memo.Correct config index)
    {fields : List Field} (h : memo.firstPending fields = none) :
    index.firstUnsized config fields = none := by
  refine List.find?_eq_none.mpr fun reference hmem => ?_
  have hsome := hmemo.isSome_layout? (isSome_find?_of_firstPending h reference hmem)
  simpa [Option.isSome_iff_ne_none] using hsome

end Memo

namespace Sizing

variable {config : Config} {index : Index} {memo : Memo}

theorem pending_eq (index : Index) (memo : Memo) (fields : List Field) :
    pending index memo fields =
      match memo.firstPending fields with
      | none => .ok none
      | some (identity, name) => (index.require identity name).map some := by
  unfold Memo.firstPending
  induction fields with
  | nil => rfl
  | cons field rest ih =>
    rw [pending, references_cons]
    split
    · rename_i identity name hcore
      rw [TypeRef.embedded_eq_some_iff.mpr hcore]
      cases hfind : memo.find? identity with
      | none =>
        simp only [Option.isSome_none, Bool.false_eq_true, ↓reduceIte, bind_pure_comp,
          Option.toList_some, List.cons_append, List.nil_append, hfind, Option.isNone_none,
          List.find?_cons_of_pos]
        cases index.require identity name <;> rfl
      | some layout => simpa [hfind] using ih
    · rename_i hcore
      have hembedded : field.type.embedded = none := by
        cases hembedded : field.type.embedded with
        | none => rfl
        | some reference => exact absurd (TypeRef.embedded_eq_some_iff.mp hembedded) (hcore _ _)
      rw [hembedded]
      exact ih

theorem firstPending_of_pending {fields : List Field}
    (h : pending index memo fields = .ok none) : memo.firstPending fields = none := by
  rw [pending_eq] at h
  split at h
  · assumption
  · rename_i identity name _
    cases hrequire : index.require identity name <;> simp [hrequire, Except.map] at h

theorem remembered_run {t : TypeDef} {layout : Layout} (h : memo.find? t.identity = some layout) :
    (remembered t).run memo = (.ok layout, memo) := by
  have hget : (get : Sizing Memo).run memo = (.ok memo, memo) := rfl
  rw [remembered, run_bind_ok hget, h]
  rfl

/-- The computation takes the layouts that the memo holds from there. -/
def Recalls (memo : Memo) (layoutOf : TypeDef → Sizing Layout) : Prop :=
  ∀ t layout, memo.find? t.identity = some layout → (layoutOf t).run memo = (.ok layout, memo)

theorem recalls_remembered (memo : Memo) : Recalls memo remembered :=
  fun _ _ => remembered_run

/-- Once every embedded definition is in the memo, the rules give the recursive layout and leave the
memo as it is, whatever else the computation could do. -/
theorem fieldLayout_run_of_recalls (hmemo : memo.Correct config index)
    {layoutOf : TypeDef → Sizing Layout} (hrecalls : Recalls memo layoutOf) {t : TypeDef}
    (hfind : index.find? t.identity = some t) (hpending : memo.firstPending t.fields = none) :
    (fieldLayout config index layoutOf t).run memo =
      (orUnsupported (index.layout? config t.identity), memo) := by
  have hanswers : ∀ reference ∈ references t.fields,
      index.Answers config (· = memo) layoutOf (index.layout? config) reference := by
    intro reference hmem
    obtain ⟨layout, hlayout⟩ :=
      Option.isSome_iff_exists.mp (Memo.isSome_find?_of_firstPending hpending reference hmem)
    have hcorrect := hmemo _ _ hlayout
    obtain ⟨inner, hinner⟩ := Index.find?_of_isSome_layout? (Option.isSome_of_eq_some hcorrect)
    refine ⟨inner, layout, hinner, hcorrect, Index.aligned_layout? hcorrect, ?_⟩
    rintro _ rfl
    rw [← Index.identity_of_find? hinner] at hlayout
    rw [hrecalls inner layout hlayout]
    exact ⟨rfl, rfl⟩
  obtain ⟨hanswer, hkept⟩ := yields_fieldLayout hanswers memo rfl
  rw [← Index.layout?_of_find? hfind] at hanswer
  exact Prod.ext hanswer hkept

theorem fieldLayout_remembered (hmemo : memo.Correct config index) {t : TypeDef}
    (hfind : index.find? t.identity = some t) (hpending : memo.firstPending t.fields = none) :
    ((fieldLayout config index remembered t).run memo).1 =
      orUnsupported (index.layout? config t.identity) := by
  rw [fieldLayout_run_of_recalls hmemo (recalls_remembered memo) hfind hpending]

end Sizing

namespace Progress

variable {config : Config} {index : Index} {p q : Progress} {top : TypeDef}
  {below : List TypeDef}

theorem run_eq (config : Config) (index : Index) (p : Progress) :
    p.run config index =
      match p.step config index with
      | .finished => (.ok (), p.memo)
      | .failed cause => (.error cause, p.memo)
      | .next q => q.run config index := by
  rw [run]
  split <;> rename_i hstep <;> rw [hstep]

theorem run_next (h : p.step config index = .next q) :
    p.run config index = q.run config index := by
  rw [run_eq, h]

theorem run_failed {cause : LayoutError} (h : p.step config index = .failed cause) :
    p.run config index = (.error cause, p.memo) := by
  rw [run_eq, h]

theorem run_nil (active : List String) (memo : Memo) :
    run config index ⟨[], active, memo⟩ = (.ok (), memo) := by
  rw [run]
  rfl

theorem step_eq (config : Config) (index : Index) (hstack : p.stack = top :: below) :
    p.step config index =
      match p.memo.firstPending top.fields with
      | some (identity, name) =>
        match index.find? identity with
        | none => .failed (.unknownType name identity)
        | some t =>
          if identity ∈ p.active then .failed (.containsItself t.name) else .next (p.push t)
      | none =>
        match ((Sizing.fieldLayout config index Sizing.remembered top).run p.memo).1 with
        | .ok layout => .next (p.settle top below layout)
        | .error cause => .failed cause := by
  rw [step, hstack]
  dsimp only
  rw [Sizing.pending_eq]
  cases p.memo.firstPending top.fields with
  | none =>
    dsimp only
    cases (Sizing.fieldLayout config index Sizing.remembered top).run p.memo with
    | mk answer memo => cases answer <;> rfl
  | some reference =>
    obtain ⟨identity, name⟩ := reference
    cases hfind : index.find? identity with
    | none =>
      dsimp only
      rw [Index.require_of_find?_eq_none hfind, hfind]
      rfl
    | some t =>
      have hidentity := Index.identity_of_find? hfind
      subst hidentity
      dsimp only
      rw [Index.require_of_find? hfind, hfind]
      rfl

/-- What holds whenever the run looks at its stack. -/
structure Sound (config : Config) (index : Index) (p : Progress) : Prop where
  active_eq : p.active = p.stack.map (·.identity)
  nodup : p.active.Nodup
  stored : ∀ t ∈ p.stack, index.find? t.identity = some t
  chain : p.stack.IsChain fun upper lower => index.Embeds lower.identity upper.identity
  correct : p.memo.Correct config index

theorem sound_start {memo : Memo} {t : TypeDef} (hmemo : memo.Correct config index)
    (hfind : index.find? t.identity = some t) : (start memo t).Sound config index where
  active_eq := rfl
  nodup := List.nodup_singleton _
  stored := by
    intro other hother
    cases List.mem_singleton.mp hother
    exact hfind
  chain := List.isChain_singleton t
  correct := hmemo

theorem Sound.find?_top (hsound : p.Sound config index) (hstack : p.stack = top :: below) :
    index.find? top.identity = some top :=
  hsound.stored top (hstack ▸ List.mem_cons_self)

theorem Sound.embeds_pending (hsound : p.Sound config index) (hstack : p.stack = top :: below)
    {reference : String × String} (hpending : p.memo.firstPending top.fields = some reference) :
    index.Embeds top.identity reference.1 := by
  have hmem := (Memo.firstPending_eq_some hpending).1
  exact Index.embeds_of_mem_references (hsound.find?_top hstack) hmem

theorem includes_of_isChain {stack : List TypeDef} :
    (top :: stack).IsChain (fun upper lower => index.Embeds lower.identity upper.identity) →
      ∀ t ∈ top :: stack, index.Includes t.identity top.identity := by
  induction stack generalizing top with
  | nil =>
    intro _ t hmem
    cases List.mem_singleton.mp hmem
    exact .refl _
  | cons next rest ih =>
    intro hchain t hmem
    obtain ⟨hembeds, hchain⟩ := List.isChain_cons_cons.mp hchain
    rcases List.mem_cons.mp hmem with rfl | hmem
    · exact .refl _
    · exact .inr ((ih hchain t hmem).reaches hembeds)

theorem Sound.includes_top (hsound : p.Sound config index) (hstack : p.stack = top :: below) :
    ∀ identity ∈ p.active, index.Includes identity top.identity := by
  intro identity hmem
  rw [hsound.active_eq, hstack] at hmem
  obtain ⟨t, htop, rfl⟩ := List.mem_map.mp hmem
  have hchain := hsound.chain
  rw [hstack] at hchain
  exact includes_of_isChain hchain t htop

theorem Sound.push (hsound : p.Sound config index) (hstack : p.stack = top :: below) {t : TypeDef}
    (hfind : index.find? t.identity = some t) (hembeds : index.Embeds top.identity t.identity)
    (hactive : t.identity ∉ p.active) : (p.push t).Sound config index where
  active_eq := congrArg (t.identity :: ·) hsound.active_eq
  nodup := List.nodup_cons.mpr ⟨hactive, hsound.nodup⟩
  stored := List.forall_mem_cons.mpr ⟨hfind, hsound.stored⟩
  chain := by
    have hchain := hsound.chain
    change List.IsChain _ (t :: p.stack)
    rw [hstack] at hchain ⊢
    exact List.isChain_cons_cons.mpr ⟨hembeds, hchain⟩
  correct := hsound.correct

theorem Sound.remember (hsound : p.Sound config index) {memo : Memo}
    (hmemo : memo.Correct config index) :
    Sound config index ⟨p.stack, p.active, memo⟩ where
  active_eq := hsound.active_eq
  nodup := hsound.nodup
  stored := hsound.stored
  chain := hsound.chain
  correct := hmemo

theorem settle_eq (hactive : p.active = p.stack.map (·.identity)) (hnodup : p.active.Nodup)
    (hstack : p.stack = top :: below) (layout : Layout) :
    p.settle top below layout =
      ⟨below, below.map (·.identity), p.memo.insert top.identity layout⟩ := by
  rw [hactive, hstack, List.map_cons, List.nodup_cons] at hnodup
  rw [settle, hactive, hstack, List.map_cons, List.filter_cons_of_neg (by simp)]
  congr 1
  rw [List.filter_eq_self]
  intro identity hmem
  have hne : identity ≠ top.identity := fun h => hnodup.1 (h ▸ hmem)
  simpa using hne

/-- What becomes of the top of the stack: it is laid out and the run goes on with the rest, or the
run fails. -/
inductive Resolves (config : Config) (index : Index) (p : Progress) (top : TypeDef)
    (below : List TypeDef) : Prop where
  | laidOut {layout : Layout} {memo : Memo}
      (hlayout : index.layout? config top.identity = some layout)
      (hcorrect : memo.Correct config index)
      (hgrows : p.memo.Grows index top.identity memo)
      (hfound : memo.find? top.identity = some layout)
      (hrun : p.run config index = run config index ⟨below, below.map (·.identity), memo⟩)
  | failed {memo : Memo}
      (hnone : index.layout? config top.identity = none)
      (hcorrect : memo.Correct config index)
      (hgrows : p.memo.Grows index top.identity memo)
      (hrun : p.run config index = (.error (index.failure config p.active top), memo))

theorem resolves_of_no_pending (hsound : p.Sound config index) (hstack : p.stack = top :: below)
    (hpending : p.memo.firstPending top.fields = none) : p.Resolves config index top below := by
  have hstep := step_eq config index hstack
  rw [hpending] at hstep
  dsimp only at hstep
  rw [Sizing.fieldLayout_remembered hsound.correct (hsound.find?_top hstack) hpending] at hstep
  cases hlayout : index.layout? config top.identity with
  | none =>
    rw [hlayout] at hstep
    have hfirst := Memo.firstUnsized_of_firstPending_eq_none hsound.correct hpending
    refine .failed hlayout hsound.correct (.refl _ _ _) ?_
    rw [run_failed hstep, Index.failure_unsupported hfirst]
  | some layout =>
    rw [hlayout] at hstep
    refine .laidOut hlayout (hsound.correct.insert hlayout) (.insert _ _ _ layout)
      (Memo.find?_insert_self _ _ _) ?_
    rw [run_next hstep, settle_eq hsound.active_eq hsound.nodup hstack]

theorem Sound.unsized_top (hsound : p.Sound config index) (hstack : p.stack = top :: below)
    {reference : String × String} (hpending : p.memo.firstPending top.fields = some reference)
    (hnone : index.layout? config reference.1 = none) :
    index.layout? config top.identity = none ∧
      index.firstUnsized config top.fields = some reference := by
  have hmem := (Memo.firstPending_eq_some hpending).1
  exact ⟨Index.layout?_eq_none_of_reference (hsound.find?_top hstack) hmem hnone,
    Memo.firstUnsized_of_firstPending hsound.correct hpending hnone⟩

theorem resolves_of_unknown (hsound : p.Sound config index) (hstack : p.stack = top :: below)
    {identity name : String} (hpending : p.memo.firstPending top.fields = some (identity, name))
    (hfind : index.find? identity = none) : p.Resolves config index top below := by
  have hunsized : index.layout? config identity = none := by
    rw [← Option.not_isSome_iff_eq_none]
    intro hsome
    obtain ⟨t, ht⟩ := Index.find?_of_isSome_layout? hsome
    cases hfind.symm.trans ht
  obtain ⟨hnone, hfirst⟩ := hsound.unsized_top hstack hpending hunsized
  have hstep := step_eq config index hstack
  simp only [hpending, hfind] at hstep
  refine .failed hnone hsound.correct (.refl _ _ _) ?_
  rw [run_failed hstep, Index.failure_unknown hfirst hfind]

theorem resolves_of_recursive (hsound : p.Sound config index) (hstack : p.stack = top :: below)
    {identity name : String} {t : TypeDef}
    (hpending : p.memo.firstPending top.fields = some (identity, name))
    (hfind : index.find? identity = some t) (hactive : identity ∈ p.active) :
    p.Resolves config index top below := by
  have hembeds := hsound.embeds_pending hstack hpending
  have hcycle : index.Reaches identity identity :=
    (hsound.includes_top hstack identity hactive).reaches hembeds
  have hunsized : index.layout? config identity = none := by
    rw [← Option.not_isSome_iff_eq_none]
    exact fun hsome => Index.not_reaches_self hsome hcycle
  obtain ⟨hnone, hfirst⟩ := hsound.unsized_top hstack hpending hunsized
  have hstep := step_eq config index hstack
  simp only [hpending, hfind, hactive, ↓reduceIte] at hstep
  refine .failed hnone hsound.correct (.refl _ _ _) ?_
  rw [run_failed hstep, Index.failure_recursive hfirst hfind hactive]

theorem weight_remember {memo : Memo} (hkept : ∀ i ∈ p.memo.identities, i ∈ memo.identities)
    {identity : String} (hindex : identity ∈ index.identities)
    (hmemo : identity ∉ p.memo.identities) (hactive : identity ∉ p.active)
    (hadded : identity ∈ memo.identities) :
    weight index ⟨p.stack, p.active, memo⟩ < p.weight index := by
  have hlt : (fresh index ⟨p.stack, p.active, memo⟩).length < (p.fresh index).length := by
    unfold fresh
    refine length_filter_lt_of_imp (a := identity) ?_ ?_ hindex ?_
    · simp [hmemo, hactive]
    · simp [hadded]
    · intro other _ hother
      simp only [decide_eq_true_eq] at hother ⊢
      exact ⟨fun hmem => hother.1 (hkept other hmem), hother.2⟩
  unfold weight
  dsimp only
  omega

/-- A run lays out what has a layout and fails, for the reason that the index gives, on the rest.
The induction is on the weight: a definition that is put on the stack is dealt with by a run of
smaller weight, and once it is in the memo the stack weighs less than before. -/
theorem resolves (hsound : p.Sound config index) (hstack : p.stack = top :: below) :
    p.Resolves config index top below := by
  induction hweight : p.weight index using Nat.strongRecOn generalizing p top below with
  | ind weight ih =>
    subst hweight
    cases hpending : p.memo.firstPending top.fields with
    | none => exact resolves_of_no_pending hsound hstack hpending
    | some reference =>
      obtain ⟨identity, name⟩ := reference
      cases hfind : index.find? identity with
      | none => exact resolves_of_unknown hsound hstack hpending hfind
      | some t =>
        by_cases hactive : identity ∈ p.active
        · exact resolves_of_recursive hsound hstack hpending hfind hactive
        · have hidentity := Index.identity_of_find? hfind
          subst hidentity
          have hmemo := (Memo.firstPending_eq_some hpending).2
          have hindex := Index.mem_identities_of_find? hfind
          have hembeds := hsound.embeds_pending hstack hpending
          have hstep := step_eq config index hstack
          simp only [hpending, hfind, hactive, ↓reduceIte] at hstep
          have hpushed := hsound.push hstack hfind hembeds hactive
          cases ih _ (weight_push hindex hmemo hactive) hpushed rfl rfl with
          | laidOut hlayout hcorrect hgrows hfound hrun =>
            -- The stack is as before, with the definition that was missing in the memo.
            replace hgrows : p.memo.Grows index t.identity _ := hgrows
            have hadded := (Memo.isSome_find? _ _).mp (Option.isSome_of_eq_some hfound)
            have hless := weight_remember hgrows.kept hindex hmemo hactive hadded
            rw [← hsound.active_eq] at hrun
            cases ih _ hless (hsound.remember hcorrect) hstack rfl with
            | laidOut hlayout' hcorrect' hgrows' hfound' hrun' =>
              refine .laidOut hlayout' hcorrect' (hgrows.trans hembeds hgrows') hfound' ?_
              rw [run_next hstep, hrun, hrun']
            | failed hnone hcorrect' hgrows' hrun' =>
              refine .failed hnone hcorrect' (hgrows.trans hembeds hgrows') ?_
              rw [run_next hstep, hrun, hrun']
          | failed hnone hcorrect hgrows hrun =>
            obtain ⟨htop, hfirst⟩ := hsound.unsized_top hstack hpending hnone
            refine .failed htop hcorrect (hgrows.of_embeds hembeds) ?_
            rw [run_next hstep, hrun, Index.failure_inner hfirst hfind hactive]
            rfl

end Progress

namespace Sizing

variable {config : Config} {index : Index} {memo : Memo} {t : TypeDef}

theorem layoutOf_run (config : Config) (index : Index) (memo : Memo) (t : TypeDef) :
    (layoutOf config index t).run memo =
      match memo.find? t.identity with
      | some layout => (.ok layout, memo)
      | none =>
        match (Progress.start memo t).run config index with
        | (.ok (), found) => (remembered t).run found
        | (.error cause, found) => (.error cause, found) := by
  have hget : (get : Sizing Memo).run memo = (.ok memo, memo) := rfl
  rw [layoutOf, run_bind_ok hget]
  cases memo.find? t.identity with
  | some layout => rfl
  | none =>
    dsimp only
    cases (Progress.start memo t).run config index with
    | mk outcome found => cases outcome <;> rfl

/-- The answer does not depend on what a correct memo holds, and the memo stays correct. -/
theorem yields_layoutOf (hfind : index.find? t.identity = some t) :
    Yields (Memo.Correct config index) (layoutOf config index t)
      (index.layoutOrFailure config t) := by
  intro memo hmemo
  rw [layoutOf_run, Index.layoutOrFailure]
  cases hfound : memo.find? t.identity with
  | some layout =>
    rw [hmemo _ _ hfound]
    exact ⟨rfl, hmemo⟩
  | none =>
    cases Progress.resolves (Progress.sound_start hmemo hfind) rfl with
    | laidOut hlayout hcorrect _ hfound hrun =>
      rw [hlayout, hrun, List.map_nil, Progress.run_nil]
      dsimp only
      rw [remembered_run hfound]
      exact ⟨rfl, hcorrect⟩
    | failed hnone hcorrect _ hrun =>
      rw [hnone, hrun]
      exact ⟨rfl, hcorrect⟩

theorem yields_footprint (hfind : index.find? t.identity = some t) :
    Yields (Memo.Correct config index) (footprint config index t)
      ((index.layoutOrFailure config t).map (·.size)) := by
  have hanswer : Yields (Memo.Correct config index) (layoutOf config index t)
      (index.layoutOrFailure config t) := yields_layoutOf hfind
  unfold footprint
  cases h : index.layoutOrFailure config t with
  | error cause =>
    rw [h] at hanswer
    exact hanswer.bind_error _
  | ok layout =>
    rw [h] at hanswer
    exact hanswer.bind (yields_pure _)

end Sizing

end CopyLint
