import CopyLint.Proofs.LayoutRun

/-! The size model against the recursive layout, on a memo that holds nothing yet. -/
namespace CopyLint

namespace Index

variable {config : Config} {index : Index} {t : TypeDef}

/-- Whatever the definition reaches is there. -/
def Closed (index : Index) (root : String) : Prop :=
  ∀ identity, index.Reaches root identity → (index.find? identity).isSome

/-- Neither the definition nor anything that it reaches embeds itself. -/
def Acyclic (index : Index) (root : String) : Prop :=
  ∀ identity, index.Includes root identity → ¬index.Reaches identity identity

theorem supported_of_forall (h : ∀ t ∈ index.definitions, ∀ field ∈ t.fields,
    field.type.Supported) : index.Supported :=
  fun _ t hfind => h t (mem_of_find? hfind)

theorem explains_of_layoutOrFailure (hfind : index.find? t.identity = some t) {cause : LayoutError}
    (h : index.layoutOrFailure config t = .error cause) : index.Explains t.identity cause := by
  unfold layoutOrFailure at h
  split at h
  · cases h
  · rename_i hnone
    cases h
    refine explains_failure hfind hnone ?_
    intro identity hmem
    cases List.mem_singleton.mp hmem
    exact .refl _

theorem closed_and_acyclic_of_isSome_layout? {root : String}
    (hsome : (index.layout? config root).isSome) : index.Closed root ∧ index.Acyclic root := by
  constructor
  · intro identity hreaches
    obtain ⟨u, hu⟩ := find?_of_isSome_layout? (hreaches.isSome_layout? hsome)
    exact Option.isSome_of_eq_some hu
  · intro identity hincludes
    rcases hincludes with rfl | hreaches
    · exact not_reaches_self hsome
    · exact not_reaches_self (hreaches.isSome_layout? hsome)

/-- Exactly the definitions that are closed and free of cycles have a layout. -/
theorem isSome_layout?_iff_closed_and_acyclic (config : Config) (hsupported : index.Supported)
    (hfind : index.find? t.identity = some t) :
    (index.layout? config t.identity).isSome ↔
      index.Closed t.identity ∧ index.Acyclic t.identity := by
  constructor
  · exact closed_and_acyclic_of_isSome_layout?
  · rintro ⟨hclosed, hacyclic⟩
    cases hanswer : index.layoutOrFailure config t with
    | ok layout =>
      unfold layoutOrFailure at hanswer
      split at hanswer
      · rename_i hlayout
        exact Option.isSome_of_eq_some hlayout
      · cases hanswer
    | error cause =>
      cases explains_of_layoutOrFailure hfind hanswer with
      | unknown hincludes hfind' hmem habsent =>
        have hreaches := hincludes.reaches (embeds_of_mem_references hfind' hmem)
        have hpresent := hclosed _ hreaches
        rw [habsent] at hpresent
        cases hpresent
      | recursive hincludes _ hreaches => exact absurd hreaches (hacyclic _ hincludes)
      | unsupported hincludes hfind' hmem hcore =>
        exact absurd hcore (hsupported _ _ hfind' _ hmem).core_ne

end Index

theorem Sizing.footprint_eq_ok_iff {config : Config} {index : Index} {t : TypeDef}
    (hstored : index.find? t.identity = some t) {size : Int} :
    ((Sizing.footprint config index t).run []).1 = .ok size ↔
      (index.layout? config t.identity).map (·.size) = some size := by
  rw [(yields_footprint hstored [] (Memo.correct_nil config index)).1]
  unfold Index.layoutOrFailure
  cases index.layout? config t.identity with
  | none => exact ⟨nofun, nofun⟩
  | some layout => simp [Except.map]

theorem Sizing.exists_footprint_iff {config : Config} {index : Index} {t : TypeDef}
    (hstored : index.find? t.identity = some t) :
    (∃ size, ((Sizing.footprint config index t).run []).1 = .ok size) ↔
      (index.layout? config t.identity).isSome := by
  simp only [footprint_eq_ok_iff hstored]
  cases index.layout? config t.identity <;> simp

/-- A definition of the index has a footprint exactly if everything that it reaches by value is
there and nothing embeds itself; the footprint is then the size of the recursive layout. Otherwise
the error is about a reference that leads nowhere or about a definition that embeds itself. -/
theorem footprint_refines_recursion (config : Config) (index : Index)
    (hsupported : index.Supported) (t : TypeDef) (hstored : index.find? t.identity = some t) :
    ((∃ size, ((Sizing.footprint config index t).run []).1 = .ok size) ↔
      index.Closed t.identity ∧ index.Acyclic t.identity) ∧
    (∀ size, ((Sizing.footprint config index t).run []).1 = .ok size ↔
      (index.layout? config t.identity).map (·.size) = some size) ∧
    ∀ cause, ((Sizing.footprint config index t).run []).1 = .error cause →
      (∃ outer holder identity name, index.Includes t.identity outer ∧
        index.find? outer = some holder ∧ (identity, name) ∈ references holder.fields ∧
          index.find? identity = none ∧ cause = .unknownType name identity) ∨
      ∃ culprit, index.Includes t.identity culprit.identity ∧
        index.find? culprit.identity = some culprit ∧
          index.Reaches culprit.identity culprit.identity ∧
            cause = .containsItself culprit.name := by
  refine ⟨?_, fun size => Sizing.footprint_eq_ok_iff hstored, ?_⟩
  · rw [← Index.isSome_layout?_iff_closed_and_acyclic config hsupported hstored]
    exact Sizing.exists_footprint_iff hstored
  · intro cause hcause
    rw [(Sizing.yields_footprint hstored [] (Memo.correct_nil config index)).1] at hcause
    have hfailure : index.layoutOrFailure config t = .error cause := by
      cases h : index.layoutOrFailure config t with
      | ok layout =>
        rw [h] at hcause
        cases hcause
      | error other =>
        rw [h] at hcause
        cases hcause
        rfl
    cases Index.explains_of_layoutOrFailure hstored hfailure with
    | unknown hincludes hfind hmem habsent =>
      exact .inl ⟨_, _, _, _, hincludes, hfind, hmem, habsent, rfl⟩
    | recursive hincludes hfind hreaches =>
      exact .inr ⟨_, hincludes, hfind, hreaches, rfl⟩
    | unsupported hincludes hfind hmem hcore =>
      exact absurd hcore (hsupported _ _ hfind _ hmem).core_ne

def innerStruct (elem : TypeRef) : TypeDef where
  identity := "Inner"
  name := "Inner"
  fields := [⟨"a", .scalar { name := "int64", size := 8 }⟩,
    ⟨"b", .scalar { name := "byte", size := 1 }⟩, ⟨"none", .array elem 0⟩]

def outerStruct : TypeDef where
  identity := "Outer"
  name := "Outer"
  fields := [⟨"one", .named "Inner" "Inner"⟩, ⟨"more", .array (.named "Inner" "Inner") 3⟩,
    ⟨"next", .pointer (.named "Outer" "Outer") ""⟩]

def nestedIndex (elem : TypeRef) : Index :=
  ⟨[innerStruct elem, outerStruct]⟩

/-- An array of no elements closes a cycle like any other field, and a pointer does not. -/
theorem footprint_refines_recursion_nested :
    (¬∃ size, ((Sizing.footprint {} (nestedIndex (.named "Outer" "Outer")) outerStruct).run []).1 =
      .ok size) ∧
    ((Sizing.footprint {} (nestedIndex (.rawPointer "")) outerStruct).run []).1 = .ok 72 := by
  constructor
  · intro hsize
    have hsupported : (nestedIndex (.named "Outer" "Outer")).Supported :=
      Index.supported_of_forall (by decide)
    have hacyclic := ((footprint_refines_recursion {} _ hsupported outerStruct rfl).1.mp hsize).2
    have hinner : (nestedIndex (.named "Outer" "Outer")).Embeds "Outer" "Inner" :=
      ⟨outerStruct, rfl, by decide⟩
    have houter : (nestedIndex (.named "Outer" "Outer")).Embeds "Inner" "Outer" :=
      ⟨innerStruct (.named "Outer" "Outer"), rfl, by decide⟩
    exact hacyclic "Outer" (.refl _) (.trans hinner (.step houter))
  · have hsupported : (nestedIndex (.rawPointer "")).Supported :=
      Index.supported_of_forall (by decide)
    have hsize := (footprint_refines_recursion {} _ hsupported outerStruct rfl).2.1 72
    exact hsize.mpr (by decide)

end CopyLint
