import Mathlib.Tactic.ByContra
import CopyLint.Proofs.LayoutRecursion

/-! Why a definition has no layout. The cause is found by following, from each definition, the first
reference that has no layout, and it is always about something that is wrong with a definition
on the way. -/
namespace CopyLint

namespace Index

variable {config : Config} {index : Index}

def firstUnsized (config : Config) (index : Index) (fields : List Field) :
    Option (String × String) :=
  (references fields).find? fun reference => (index.layout? config reference.1).isNone

theorem length_filter_not_mem_cons_lt {path : List String} {identity : String}
    (hindex : identity ∈ index.identities) (hpath : identity ∉ path) :
    (index.identities.filter (· ∉ identity :: path)).length <
      (index.identities.filter (· ∉ path)).length := by
  refine length_filter_lt_of_imp (a := identity) (by simpa using hpath) (by simp) hindex ?_
  intro other _ hother
  simp only [List.mem_cons, not_or, decide_eq_true_eq] at hother ⊢
  exact hother.2

/-- Why a definition cannot be laid out, met on the path of the definitions that wait for it. The
first reference without a layout is followed until it leads nowhere or back to the path. -/
def failure (config : Config) (index : Index) (path : List String) (t : TypeDef) : LayoutError :=
  match index.firstUnsized config t.fields with
  | none => .unsupportedRef {}
  | some (identity, name) =>
    match _ : index.find? identity with
    | none => .unknownType name identity
    | some inner =>
      if _ : identity ∈ path then .containsItself inner.name
      else index.failure config (identity :: path) inner
termination_by (index.identities.filter (· ∉ path)).length
decreasing_by exact length_filter_not_mem_cons_lt (mem_identities_of_find? ‹_›) ‹_›

section

variable {path : List String} {t inner : TypeDef} {identity name : String}

theorem failure_unsupported (hfirst : index.firstUnsized config t.fields = none) :
    index.failure config path t = .unsupportedRef {} := by
  rw [failure, hfirst]

theorem failure_unknown (hfirst : index.firstUnsized config t.fields = some (identity, name))
    (hfind : index.find? identity = none) :
    index.failure config path t = .unknownType name identity := by
  rw [failure, hfirst]
  dsimp only
  split
  · rfl
  · rename_i hsome
    cases hfind.symm.trans hsome

theorem failure_recursive (hfirst : index.firstUnsized config t.fields = some (identity, name))
    (hfind : index.find? identity = some inner) (hpath : identity ∈ path) :
    index.failure config path t = .containsItself inner.name := by
  rw [failure, hfirst]
  dsimp only
  split
  · rename_i hnone
    cases hfind.symm.trans hnone
  · rename_i hsome
    cases hfind.symm.trans hsome
    rw [dif_pos hpath]

theorem failure_inner (hfirst : index.firstUnsized config t.fields = some (identity, name))
    (hfind : index.find? identity = some inner) (hpath : identity ∉ path) :
    index.failure config path t = index.failure config (identity :: path) inner := by
  rw [failure, hfirst]
  dsimp only
  split
  · rename_i hnone
    cases hfind.symm.trans hnone
  · rename_i hsome
    cases hfind.symm.trans hsome
    rw [dif_neg hpath]

end

def layoutOrFailure (config : Config) (index : Index) (t : TypeDef) :
    Except LayoutError Layout :=
  match index.layout? config t.identity with
  | some layout => .ok layout
  | none => .error (index.failure config [t.identity] t)

theorem firstUnsized_eq_some {fields : List Field} {reference : String × String}
    (h : index.firstUnsized config fields = some reference) :
    reference ∈ references fields ∧ index.layout? config reference.1 = none := by
  refine ⟨List.mem_of_find?_eq_some h, ?_⟩
  have hnone := List.find?_some h
  simpa using hnone

theorem isSome_layout?_of_firstUnsized {fields : List Field}
    (h : index.firstUnsized config fields = none) :
    ∀ reference ∈ references fields, (index.layout? config reference.1).isSome := by
  intro reference hmem
  have hnot := List.find?_eq_none.mp h reference hmem
  simpa [Option.isSome_iff_ne_none] using hnot

/-- The cause is about a definition on the way: it refers to a definition that is not there, it
embeds itself, or one of its fields refers to nothing. -/
inductive Explains (index : Index) (root : String) : LayoutError → Prop where
  | unknown {outer : String} {t : TypeDef} {identity name : String} :
      index.Includes root outer → index.find? outer = some t →
        (identity, name) ∈ references t.fields → index.find? identity = none →
          index.Explains root (.unknownType name identity)
  | recursive {t : TypeDef} :
      index.Includes root t.identity → index.find? t.identity = some t →
        index.Reaches t.identity t.identity → index.Explains root (.containsItself t.name)
  | unsupported {outer : String} {t : TypeDef} {field : Field} :
      index.Includes root outer → index.find? outer = some t → field ∈ t.fields →
        field.type.core = .unsupported → index.Explains root (.unsupportedRef {})

theorem Explains.of_embeds {root inner : String} {cause : LayoutError}
    (hembeds : index.Embeds root inner) (h : index.Explains inner cause) :
    index.Explains root cause := by
  cases h with
  | unknown hincludes hfind hmem hnone =>
    exact .unknown (.of_embeds hembeds hincludes) hfind hmem hnone
  | recursive hincludes hfind hreaches =>
    exact .recursive (.of_embeds hembeds hincludes) hfind hreaches
  | unsupported hincludes hfind hmem hcore =>
    exact .unsupported (.of_embeds hembeds hincludes) hfind hmem hcore

/-- A failure never blames a definition that is sound. -/
theorem explains_failure {path : List String} {t : TypeDef}
    (hfind : index.find? t.identity = some t)
    (hnone : index.layout? config t.identity = none)
    (hpath : ∀ identity ∈ path, index.Includes identity t.identity) :
    index.Explains t.identity (index.failure config path t) := by
  fun_induction failure config index path t with
  | case1 path t hfirst =>
    have hsized := isSome_layout?_of_firstUnsized hfirst
    by_contra hsound
    have hsupported : ∀ field ∈ t.fields, field.type.core ≠ .unsupported :=
      fun field hmem hcore => hsound (.unsupported (.refl _) hfind hmem hcore)
    have hsome := isSome_layout?_iff.mpr ⟨t, hfind, hsupported, hsized⟩
    rw [hnone] at hsome
    cases hsome
  | case2 path t identity name hfirst habsent =>
    obtain ⟨hmem, _⟩ := firstUnsized_eq_some hfirst
    exact .unknown (.refl _) hfind hmem habsent
  | case3 path t identity name hfirst inner hinner hmemPath =>
    obtain ⟨hmem, _⟩ := firstUnsized_eq_some hfirst
    have hembeds := embeds_of_mem_references hfind hmem
    have hidentity := identity_of_find? hinner
    subst hidentity
    exact .recursive (.inr (.step hembeds)) hinner ((hpath _ hmemPath).reaches hembeds)
  | case4 path t identity name hfirst inner hinner hnew ih =>
    obtain ⟨hmem, hunsized⟩ := firstUnsized_eq_some hfirst
    have hembeds := embeds_of_mem_references hfind hmem
    have hidentity := identity_of_find? hinner
    subst hidentity
    refine (ih hinner hunsized ?_).of_embeds hembeds
    intro other hother
    rcases List.mem_cons.mp hother with rfl | hother
    · exact .refl _
    · exact .inr ((hpath other hother).reaches hembeds)

end Index

end CopyLint
