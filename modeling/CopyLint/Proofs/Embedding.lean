import CopyLint.Graph.Embedding

/-! What the fields of a definition refer to, and what is reached by following the references. A
reference is the identity and the name that a field spells; only the identity decides where it
leads. -/
namespace CopyLint

def references (fields : List Field) : List (String × String) :=
  fields.filterMap (·.type.embedded)

theorem references_cons (field : Field) (rest : List Field) :
    references (field :: rest) = field.type.embedded.toList ++ references rest := by
  unfold references
  rw [List.filterMap_cons]
  cases field.type.embedded <;> rfl

theorem mem_references {fields : List Field} {reference : String × String} :
    reference ∈ references fields ↔ ∃ field ∈ fields, field.type.embedded = some reference :=
  List.mem_filterMap

theorem TypeDef.mem_embeds {t : TypeDef} {identity : String} :
    identity ∈ t.embeds ↔ ∃ reference ∈ references t.fields, reference.1 = identity := by
  unfold TypeDef.embeds references
  simp only [List.mem_filterMap, Option.map_eq_some_iff]
  constructor
  · rintro ⟨field, hfield, reference, hreference, rfl⟩
    exact ⟨reference, ⟨field, hfield, hreference⟩, rfl⟩
  · rintro ⟨reference, ⟨field, hfield, hreference⟩, rfl⟩
    exact ⟨field, hfield, reference, hreference, rfl⟩

namespace TypeRef

theorem embedded_eq_some_iff {ref : TypeRef} {identity name : String} :
    ref.embedded = some (identity, name) ↔ ref.core = .named identity name := by
  unfold embedded
  split
  · rename_i hcore
    rw [hcore]
    simp
  · rename_i hcore
    exact ⟨nofun, fun h => (hcore _ _ h).elim⟩

@[simp] theorem embedded_named (identity name : String) :
    (named identity name).embedded = some (identity, name) := rfl

@[simp] theorem embedded_array (elem : TypeRef) (length : Int) :
    (array elem length).embedded = elem.embedded := rfl

@[simp] theorem core_array (elem : TypeRef) (length : Int) :
    (array elem length).core = elem.core := rfl

theorem Supported.core_ne {ref : TypeRef} (h : ref.Supported) : ref.core ≠ .unsupported := by
  induction ref with
  | array elem length ih => exact ih h
  | unsupported => exact h.elim
  | scalar => nofun
  | named => nofun
  | pointer => nofun
  | rawPointer => nofun

end TypeRef

namespace Index

variable {index : Index} {outer middle inner : String}

theorem embeds_of_mem_references {t : TypeDef} {reference : String × String}
    (hfind : index.find? outer = some t) (hmem : reference ∈ references t.fields) :
    index.Embeds outer reference.1 :=
  ⟨t, hfind, TypeDef.mem_embeds.mpr ⟨reference, hmem, rfl⟩⟩

theorem Embeds.exists_reference (h : index.Embeds outer inner) :
    ∃ t, index.find? outer = some t ∧ ∃ name, (inner, name) ∈ references t.fields := by
  obtain ⟨t, hfind, hmem⟩ := h
  obtain ⟨⟨_, name⟩, hreference, rfl⟩ := TypeDef.mem_embeds.mp hmem
  exact ⟨t, hfind, name, hreference⟩

theorem Reaches.comp (h : index.Reaches outer middle) (h' : index.Reaches middle inner) :
    index.Reaches outer inner := by
  induction h with
  | step hstep => exact .trans hstep h'
  | trans hstep _ ih => exact .trans hstep (ih h')

/-- The definition itself, or one that it reaches. -/
def Includes (index : Index) (outer inner : String) : Prop :=
  outer = inner ∨ index.Reaches outer inner

theorem Includes.refl (identity : String) : index.Includes identity identity :=
  .inl rfl

theorem Includes.reaches (h : index.Includes outer middle) (h' : index.Embeds middle inner) :
    index.Reaches outer inner := by
  rcases h with rfl | h
  · exact .step h'
  · exact h.comp (.step h')

theorem Includes.of_embeds (h : index.Embeds outer middle) (h' : index.Includes middle inner) :
    index.Includes outer inner := by
  rcases h' with rfl | h'
  · exact .inr (.step h)
  · exact .inr (.trans h h')

/-- Every field of every definition that can be found refers to something. -/
def Supported (index : Index) : Prop :=
  ∀ identity t, index.find? identity = some t → ∀ field ∈ t.fields, field.type.Supported

end Index

end CopyLint
