import Mathlib.Logic.Relation
import CopyLint.Proofs.GraphCheck

/-! What the check of a package says, told in terms of the definitions that the package lists. It
passes exactly the packages without a repeated identity, an unknown reference or a cycle; otherwise
its message names a repetition, a reference or a closed walk that is really there. -/
namespace CopyLint

/-- A value of the type holds a value of the definition: the type refers to it, or it is an array,
however long, of such a type. -/
inductive TypeRef.Holds : TypeRef → String → String → Prop where
  | named (identity name : String) : Holds (.named identity name) identity name
  | array {elem : TypeRef} {identity name : String} (length : Int) :
      elem.Holds identity name → Holds (.array elem length) identity name

theorem TypeRef.holds_iff {ref : TypeRef} {identity name : String} :
    ref.Holds identity name ↔ ref.embedded = some (identity, name) := by
  constructor
  · intro h
    induction h with
    | named => rfl
    | array length _ ih => exact ih
  · intro h
    induction ref with
    | named =>
      cases h
      exact .named identity name
    | array elem length ih => exact .array length (ih h)
    | scalar | pointer | rawPointer | unsupported => cases h

namespace Index

variable {index : Index}

theorem isSome_find?_iff {identity : String} :
    (index.find? identity).isSome ↔ identity ∈ index.identities := by
  simp [find?, identities]

theorem reaches_iff_transGen {outer inner : String} :
    index.Reaches outer inner ↔ Relation.TransGen index.Embeds outer inner := by
  constructor
  · intro h
    induction h with
    | step hembeds => exact .single hembeds
    | trans hembeds _ ih => exact .head hembeds ih
  · intro h
    induction h using Relation.TransGen.head_induction_on with
    | single hembeds => exact .step hembeds
    | head hembeds _ ih => exact .trans hembeds ih

theorem firstUnknown_eq_some {types : List TypeDef} {t : TypeDef} {field : Field} {name : String}
    (h : index.firstUnknown types = some (t, field, name)) :
    t ∈ types ∧ field ∈ t.fields ∧
      ∃ identity, field.type.Holds identity name ∧ identity ∉ index.identities := by
  obtain ⟨outer, houter, h⟩ := List.exists_of_findSome?_eq_some h
  obtain ⟨found, hfound, h⟩ := List.exists_of_findSome?_eq_some h
  split at h
  · rename_i identity refName hembedded
    split at h
    · cases h
    · rename_i habsent
      cases h
      rw [isSome_find?_iff] at habsent
      exact ⟨houter, hfound, identity, TypeRef.holds_iff.mpr hembedded, habsent⟩
  · cases h

theorem IsCycle.isSome_find? {identities : List String} (h : index.IsCycle identities) :
    ∀ identity ∈ identities, (index.find? identity).isSome := by
  obtain ⟨hchain, start, middle, rfl, _⟩ := h
  have hinit : ∀ identity ∈ start :: middle, (index.find? identity).isSome := by
    intro identity hmem
    obtain ⟨before, after, hsplit⟩ := List.append_of_mem hmem
    rw [hsplit, List.append_assoc, List.cons_append] at hchain
    obtain ⟨next, rest, hnext⟩ := List.exists_cons_of_ne_nil (l := after ++ [start]) (by simp)
    rw [hnext] at hchain
    obtain ⟨t, hfind⟩ := (List.isChain_cons_cons.mp hchain.right_of_append).1.find?
    exact Option.isSome_of_eq_some hfind
  intro identity hmem
  rcases List.mem_append.mp hmem with hmem | hmem
  · exact hinit identity hmem
  · cases List.mem_singleton.mp hmem
    exact hinit start List.mem_cons_self

end Index

theorem firstRepeat_eq_some {seen xs : List String} {x : String}
    (h : firstRepeat seen xs = some x) :
    ∃ before after, xs = before ++ x :: after ∧ before.Nodup ∧ (∀ y ∈ before, y ∉ seen) ∧
      (x ∈ before ∨ x ∈ seen) := by
  induction xs generalizing seen with
  | nil => cases h
  | cons first rest ih =>
    rw [firstRepeat] at h
    split at h
    · rename_i hseen
      cases h
      exact ⟨[], rest, rfl, List.nodup_nil, List.forall_mem_nil _, .inr hseen⟩
    · rename_i hnew
      obtain ⟨before, after, rfl, hnodup, hbefore, hx⟩ := ih h
      simp only [List.mem_cons, not_or] at hbefore hx
      refine ⟨first :: before, after, rfl, ?_, ?_, ?_⟩
      · exact List.nodup_cons.mpr ⟨fun hmem => (hbefore first hmem).1 rfl, hnodup⟩
      · exact List.forall_mem_cons.mpr ⟨hnew, fun y hy => (hbefore y hy).2⟩
      · rw [List.mem_cons]
        tauto

namespace Package

variable {p : Package}

def definitions (p : Package) : List TypeDef :=
  p.types ++ p.imported

def identities (p : Package) : List String :=
  p.definitions.map (·.identity)

/-- A field of a definition of the first identity holds the definition of the second. -/
def Refers (p : Package) (outer inner : String) : Prop :=
  ∃ t ∈ p.definitions, t.identity = outer ∧ ∃ field ∈ t.fields, ∃ name, field.type.Holds inner name

def Known (p : Package) : Prop :=
  ∀ t ∈ p.definitions, ∀ field ∈ t.fields, ∀ identity name,
    field.type.Holds identity name → identity ∈ p.identities

/-- No definition holds itself, however indirectly. -/
def Acyclic (p : Package) : Prop :=
  ∀ identity, ¬Relation.TransGen p.Refers identity identity

def Calls (p : Package) (identity name : String) : Prop :=
  ∃ t ∈ p.definitions, t.identity = identity ∧ t.name = name

theorem mem_definitions {t : TypeDef} : t ∈ p.definitions ↔ t ∈ p.index.definitions :=
  mem_index_iff.symm

theorem mem_identities {identity : String} : identity ∈ p.identities ↔
    identity ∈ p.index.identities := by
  simp only [identities, Index.identities, List.mem_map, mem_definitions]

theorem refers_eq (hnodup : p.identities.Nodup) : p.Refers = p.index.Embeds := by
  ext outer inner
  simp only [Refers, Index.Embeds, TypeDef.mem_embeds, mem_references, TypeRef.holds_iff]
  constructor
  · rintro ⟨t, hmem, rfl, field, hfield, name, hholds⟩
    have hfind := Index.find?_of_mem (nodup_identities_index hnodup) (mem_definitions.mp hmem)
    exact ⟨t, hfind, _, ⟨field, hfield, hholds⟩, rfl⟩
  · rintro ⟨t, hfind, ⟨_, name⟩, ⟨field, hfield, hholds⟩, rfl⟩
    have hmem := mem_definitions.mpr (Index.mem_of_find? hfind)
    exact ⟨t, hmem, Index.identity_of_find? hfind, field, hfield, name, hholds⟩

theorem known_iff : p.Known ↔ ∀ t ∈ p.index.definitions, ∀ reference ∈ references t.fields,
    (p.index.find? reference.1).isSome := by
  simp only [Known, mem_definitions, mem_identities, mem_references, Index.isSome_find?_iff,
    TypeRef.holds_iff]
  constructor
  · rintro h t hmem ⟨identity, name⟩ ⟨field, hfield, hembedded⟩
    exact h t hmem field hfield identity name hembedded
  · intro h t hmem field hfield identity name hembedded
    exact h t hmem (identity, name) ⟨field, hfield, hembedded⟩

theorem acyclic_iff (hnodup : p.identities.Nodup) :
    p.Acyclic ↔ ∀ identity, ¬p.index.Reaches identity identity := by
  simp only [Acyclic, refers_eq hnodup, Index.reaches_iff_transGen]

theorem check_eq_ok_iff_listed :
    p.check = .ok () ↔ p.identities.Nodup ∧ p.Known ∧ p.Acyclic := by
  rw [check_eq_ok_iff, ← known_iff]
  refine and_congr_right fun hnodup => ?_
  rw [acyclic_iff hnodup]

theorem check_eq (p : Package) :
    p.check =
      match firstRepeat [] p.identities with
      | some identity => .error (.duplicateIdentity p.label identity)
      | none =>
        match p.index.firstUnknown (p.imported ++ p.types) with
        | some (t, field, name) => .error (.unknownType p.label t.name field.name name)
        | none =>
          match p.index.cycle? with
          | some cycle =>
            .error (.cycle p.label (cycle.filterMap fun i => (p.index.find? i).map (·.name)))
          | none => .ok () := by
  unfold check identities definitions
  cases firstRepeat [] ((p.types ++ p.imported).map (·.identity)) with
  | some identity => rfl
  | none =>
    cases p.index.firstUnknown (p.imported ++ p.types) with
    | some found => rfl
    | none => cases p.index.cycle? <;> rfl

theorem firstRepeat_eq_none (hnodup : p.identities.Nodup) : firstRepeat [] p.identities = none := by
  simp [firstRepeat_eq_none_iff, hnodup]

theorem firstUnknown_eq_none (hknown : p.Known) :
    p.index.firstUnknown (p.imported ++ p.types) = none := by
  rw [Index.firstUnknown_eq_none_iff]
  intro t hmem
  exact known_iff.mp hknown t (mem_definitions_index.mpr hmem)

theorem check_of_repeat (h : ¬p.identities.Nodup) :
    ∃ before t after, p.definitions = before ++ t :: after ∧ (before.map (·.identity)).Nodup ∧
      t.identity ∈ before.map (·.identity) ∧
      p.check = .error (.duplicateIdentity p.label t.identity) := by
  cases hrepeat : firstRepeat [] p.identities with
  | none => simp [firstRepeat_eq_none_iff, h] at hrepeat
  | some identity =>
    have hcheck := p.check_eq
    rw [hrepeat] at hcheck
    obtain ⟨before, after, hsplit, hnodup, _, hmem⟩ := firstRepeat_eq_some hrepeat
    obtain ⟨earlier, rest, hdefinitions, rfl, hrest⟩ := List.map_eq_append_iff.mp hsplit
    obtain ⟨t, later, rfl, rfl, rfl⟩ := List.map_eq_cons_iff.mp hrest
    exact ⟨earlier, t, later, hdefinitions, hnodup, hmem.resolve_right List.not_mem_nil, hcheck⟩

theorem check_of_unknown (hnodup : p.identities.Nodup) (h : ¬p.Known) :
    ∃ t ∈ p.definitions, ∃ field ∈ t.fields, ∃ identity name,
      field.type.Holds identity name ∧ identity ∉ p.identities ∧
      p.check = .error (.unknownType p.label t.name field.name name) := by
  cases hunknown : p.index.firstUnknown (p.imported ++ p.types) with
  | none =>
    simp only [Index.firstUnknown_eq_none_iff, ← mem_definitions_index] at hunknown
    exact absurd (known_iff.mpr hunknown) h
  | some found =>
    obtain ⟨t, field, name⟩ := found
    have hcheck := p.check_eq
    rw [firstRepeat_eq_none hnodup, hunknown] at hcheck
    obtain ⟨hmem, hfield, identity, hholds, habsent⟩ := Index.firstUnknown_eq_some hunknown
    rw [← mem_definitions_index, ← mem_definitions] at hmem
    rw [← mem_identities] at habsent
    exact ⟨t, hmem, field, hfield, identity, name, hholds, habsent, hcheck⟩

theorem calls_of_isSome_find? {identities : List String}
    (h : ∀ identity ∈ identities, (p.index.find? identity).isSome) :
    identities.Forall₂ p.Calls
      (identities.filterMap fun identity => (p.index.find? identity).map (·.name)) := by
  induction identities with
  | nil => exact .nil
  | cons identity rest ih =>
    rw [List.forall_mem_cons] at h
    obtain ⟨t, hfind⟩ := Option.isSome_iff_exists.mp h.1
    rw [List.filterMap_cons, hfind]
    refine .cons ?_ (ih h.2)
    exact ⟨t, mem_definitions.mpr (Index.mem_of_find? hfind), Index.identity_of_find? hfind, rfl⟩

theorem check_of_cycle (hnodup : p.identities.Nodup) (hknown : p.Known) (h : ¬p.Acyclic) :
    ∃ start middle names, (start :: middle).Nodup ∧
      (start :: middle ++ [start]).IsChain p.Refers ∧
      (start :: middle ++ [start]).Forall₂ p.Calls names ∧
      p.check = .error (.cycle p.label names) := by
  cases hfound : p.index.cycle? with
  | none => exact absurd ((acyclic_iff hnodup).mpr (Index.cycle?_eq_none_iff.mp hfound)) h
  | some cycle =>
    have hcheck := p.check_eq
    rw [firstRepeat_eq_none hnodup, firstUnknown_eq_none hknown, hfound] at hcheck
    have hcycle := Index.cycle?_eq_some hfound
    have hcalls := calls_of_isSome_find? hcycle.isSome_find?
    obtain ⟨hchain, start, middle, rfl, hdistinct⟩ := hcycle
    rw [← refers_eq hnodup] at hchain
    exact ⟨start, middle, _, hdistinct, hchain, hcalls, hcheck⟩

end Package

/-- The check passes a package exactly if its identities are distinct, each definition that a field
holds is listed and none holds itself. The message of a failure names the first definition that
repeats an earlier identity; else a field that holds an unknown definition; else, in order, the
definitions on a closed walk that passes each of them once. -/
theorem check_is_exact (p : Package) :
    (p.check = .ok () ↔ p.identities.Nodup ∧ p.Known ∧ p.Acyclic) ∧
    (¬p.identities.Nodup → ∃ before t after, p.definitions = before ++ t :: after ∧
      (before.map (·.identity)).Nodup ∧ t.identity ∈ before.map (·.identity) ∧
      p.check.mapError (·.message) =
        .error s!"unit {p.label}: duplicate type identity {Text.quoted t.identity}") ∧
    (p.identities.Nodup → ¬p.Known → ∃ t ∈ p.definitions, ∃ field ∈ t.fields, ∃ identity name,
      field.type.Holds identity name ∧ identity ∉ p.identities ∧
      p.check.mapError (·.message) =
        let shown := if field.name = "" then "_" else field.name
        let missing := Text.quoted name
        .error s!"unit {p.label}: field {t.name}.{shown} refers to unknown type {missing}") ∧
    (p.identities.Nodup → p.Known → ¬p.Acyclic → ∃ start middle names,
      (start :: middle).Nodup ∧ (start :: middle ++ [start]).IsChain p.Refers ∧
      (start :: middle ++ [start]).Forall₂ p.Calls names ∧
      p.check.mapError (·.message) =
        let path := " -> ".intercalate names
        .error s!"unit {p.label}: invalid recursive type {path}") := by
  refine ⟨Package.check_eq_ok_iff_listed, fun hrepeat => ?_, fun hnodup hunknown => ?_,
    fun hnodup hknown hcyclic => ?_⟩
  · obtain ⟨before, t, after, hsplit, hnodup, hmem, hcheck⟩ := Package.check_of_repeat hrepeat
    exact ⟨before, t, after, hsplit, hnodup, hmem, by rw [hcheck]; rfl⟩
  · obtain ⟨t, hmem, field, hfield, identity, name, hholds, habsent, hcheck⟩ :=
      Package.check_of_unknown hnodup hunknown
    exact ⟨t, hmem, field, hfield, identity, name, hholds, habsent, by rw [hcheck]; rfl⟩
  · obtain ⟨start, middle, names, hdistinct, hchain, hcalls, hcheck⟩ :=
      Package.check_of_cycle hnodup hknown hcyclic
    exact ⟨start, middle, names, hdistinct, hchain, hcalls, by rw [hcheck]; rfl⟩

def ringPackage (identity : String) (inner : TypeRef) : Package where
  name := "ring"
  types := [⟨"p.Node", "Node", [⟨"links", .array (.named "q.Link" "Link") 4⟩]⟩]
  imported := [⟨identity, "Link", [⟨"", .array inner 0⟩]⟩]

def twinPackage : Package := ringPackage "p.Node" (.rawPointer "")

def strayPackage : Package := ringPackage "q.Link" (.named "x.Gone" "Gone")

def loopPackage : Package := ringPackage "q.Link" (.named "p.Node" "Node")

theorem check_is_exact_ring :
    (¬twinPackage.identities.Nodup ∧ twinPackage.check.mapError (·.message) =
      .error "unit ring: duplicate type identity 'p.Node'") ∧
    (strayPackage.identities.Nodup ∧ ¬strayPackage.Known ∧
      strayPackage.check.mapError (·.message) =
        .error "unit ring: field Link._ refers to unknown type 'Gone'") ∧
    loopPackage.identities.Nodup ∧ loopPackage.Known ∧ ¬loopPackage.Acyclic ∧
      ∃ start middle names, (start :: middle).Nodup ∧
        (start :: middle ++ [start]).IsChain loopPackage.Refers ∧
        (start :: middle ++ [start]).Forall₂ loopPackage.Calls names ∧
        loopPackage.check.mapError (·.message) =
          .error ("unit ring: invalid recursive type " ++ " -> ".intercalate names) := by
  refine ⟨?_, ?_, ?_⟩
  · have hrepeat : ¬twinPackage.identities.Nodup := by decide
    obtain ⟨before, t, after, hsplit, _, _, hcheck⟩ := (check_is_exact twinPackage).2.1 hrepeat
    have hall : ∀ t ∈ twinPackage.definitions, t.identity = "p.Node" := by decide
    rw [hall t (by simp [hsplit])] at hcheck
    exact ⟨hrepeat, hcheck.trans (by decide +kernel)⟩
  · have hnodup : strayPackage.identities.Nodup := by decide
    have hunknown : ¬strayPackage.Known := by
      intro hknown
      have hmem := hknown _ (List.mem_cons_of_mem _ List.mem_cons_self) _ List.mem_cons_self
        "x.Gone" "Gone" (.array 0 (.named _ _))
      revert hmem
      decide
    obtain ⟨t, ht, field, hfield, identity, name, hholds, habsent, hcheck⟩ :=
      (check_is_exact strayPackage).2.2.1 hnodup hunknown
    refine ⟨hnodup, hunknown, hcheck.trans ?_⟩
    have hall : ∀ t ∈ strayPackage.definitions, ∀ field ∈ t.fields,
        ∀ reference ∈ field.type.embedded, reference.1 ∈ strayPackage.identities ∨
          t.name = "Link" ∧ field.name = "" ∧ reference.2 = "Gone" := by
      decide
    obtain hlisted | ⟨htype, hname, hreference⟩ :=
      hall t ht field hfield (identity, name) (TypeRef.holds_iff.mp hholds)
    · exact absurd hlisted habsent
    · dsimp only at hreference
      rw [htype, hname, hreference]
      decide +kernel
  · have hnodup : loopPackage.identities.Nodup := by decide
    have hknown : loopPackage.Known := Package.known_iff.mpr (by decide)
    have hcyclic : ¬loopPackage.Acyclic := by
      intro hacyclic
      have hlink : loopPackage.Refers "p.Node" "q.Link" :=
        ⟨_, List.mem_cons_self, rfl, _, List.mem_cons_self, _, .array 4 (.named _ _)⟩
      have hnode : loopPackage.Refers "q.Link" "p.Node" :=
        ⟨_, List.mem_cons_of_mem _ List.mem_cons_self, rfl, _, List.mem_cons_self, _,
          .array 0 (.named _ _)⟩
      exact hacyclic "p.Node" (.head hlink (.single hnode))
    exact ⟨hnodup, hknown, hcyclic, (check_is_exact loopPackage).2.2.2 hnodup hknown hcyclic⟩

end CopyLint
