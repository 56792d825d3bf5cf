import CopyLint.Graph.Check
import CopyLint.Proofs.CycleSearch
import CopyLint.Proofs.Footprint

/-! The conditions under which a package passes its check, and under which each of its definitions
has a footprint. They are the same, although the two are found out by different searches. -/
namespace CopyLint

theorem firstRepeat_eq_none_iff {seen xs : List String} :
    firstRepeat seen xs = none ↔ xs.Nodup ∧ ∀ x ∈ xs, x ∉ seen := by
  induction xs generalizing seen with
  | nil => simp [firstRepeat]
  | cons x rest ih =>
    rw [firstRepeat, List.nodup_cons, List.forall_mem_cons]
    by_cases hx : x ∈ seen
    · simp [hx]
    · rw [if_neg hx, ih]
      simp only [List.mem_cons, not_or]
      constructor
      · rintro ⟨hnodup, hnew⟩
        exact ⟨⟨fun hmem => (hnew x hmem).1 rfl, hnodup⟩, hx, fun y hy => (hnew y hy).2⟩
      · rintro ⟨⟨hnew, hnodup⟩, _, hrest⟩
        refine ⟨hnodup, fun y hy => ⟨?_, hrest y hy⟩⟩
        rintro rfl
        exact hnew hy

namespace Index

variable {index : Index}

theorem firstUnknown_eq_none_iff {types : List TypeDef} :
    index.firstUnknown types = none ↔
      ∀ t ∈ types, ∀ reference ∈ references t.fields, (index.find? reference.1).isSome := by
  unfold firstUnknown
  rw [List.findSome?_eq_none_iff]
  refine forall₂_congr fun t _ => ?_
  rw [List.findSome?_eq_none_iff]
  constructor
  · intro h reference hmem
    obtain ⟨field, hfield, hreference⟩ := mem_references.mp hmem
    have hknown := h field hfield
    rw [hreference] at hknown
    by_contra habsent
    simp [habsent] at hknown
  · intro h field hfield
    cases hreference : field.type.embedded with
    | none => rfl
    | some reference =>
      have hknown := h reference (mem_references.mpr ⟨field, hfield, hreference⟩)
      simp [hknown]

theorem find?_of_mem (hnodup : index.identities.Nodup) {t : TypeDef}
    (hmem : t ∈ index.definitions) : index.find? t.identity = some t := by
  unfold find?
  obtain ⟨definitions⟩ := index
  induction definitions with
  | nil => cases hmem
  | cons first rest ih =>
    rw [identities, List.map_cons, List.nodup_cons] at hnodup
    rcases List.mem_cons.mp hmem with rfl | hmem
    · simp
    · have hne : first.identity ≠ t.identity := by
        intro h
        exact hnodup.1 (h ▸ List.mem_map_of_mem hmem)
      rw [List.find?_cons_of_neg (by simpa using hne)]
      exact ih hnodup.2 hmem

theorem closed_of_references_known
    (h : ∀ t ∈ index.definitions, ∀ reference ∈ references t.fields,
      (index.find? reference.1).isSome) (root : String) : index.Closed root := by
  intro identity hreaches
  induction hreaches with
  | step hembeds =>
    obtain ⟨t, hfind, name, hmem⟩ := hembeds.exists_reference
    exact h t (mem_of_find? hfind) _ hmem
  | trans _ _ ih => exact ih

end Index

namespace Package

variable {p : Package}

theorem mem_definitions_index {t : TypeDef} :
    t ∈ p.index.definitions ↔ t ∈ p.imported ++ p.types :=
  List.mem_reverse

theorem mem_index_iff {t : TypeDef} :
    t ∈ p.index.definitions ↔ t ∈ p.types ++ p.imported := by
  rw [mem_definitions_index, List.mem_append, List.mem_append, or_comm]

theorem nodup_identities_index (h : ((p.types ++ p.imported).map (·.identity)).Nodup) :
    p.index.identities.Nodup := by
  have hperm : p.index.definitions.Perm (p.types ++ p.imported) :=
    (List.reverse_perm _).trans List.perm_append_comm
  exact ((hperm.map (·.identity)).nodup_iff).mpr h

theorem check_eq_ok_iff :
    p.check = .ok () ↔ ((p.types ++ p.imported).map (·.identity)).Nodup ∧
      (∀ t ∈ p.index.definitions, ∀ reference ∈ references t.fields,
        (p.index.find? reference.1).isSome) ∧
      ∀ identity, ¬p.index.Reaches identity identity := by
  have hrepeat : firstRepeat [] ((p.types ++ p.imported).map (·.identity)) = none ↔
      ((p.types ++ p.imported).map (·.identity)).Nodup := by
    simp [firstRepeat_eq_none_iff]
  have hunknown : p.index.firstUnknown (p.imported ++ p.types) = none ↔
      ∀ t ∈ p.index.definitions, ∀ reference ∈ references t.fields,
        (p.index.find? reference.1).isSome := by
    simp only [Index.firstUnknown_eq_none_iff, mem_definitions_index]
  rw [← hrepeat, ← hunknown, ← Index.cycle?_eq_none_iff]
  unfold check
  cases firstRepeat [] ((p.types ++ p.imported).map (·.identity)) with
  | some identity => exact ⟨nofun, nofun⟩
  | none =>
    cases p.index.firstUnknown (p.imported ++ p.types) with
    | some found => exact ⟨nofun, nofun⟩
    | none =>
      cases p.index.cycle? with
      | some cycle => exact ⟨nofun, nofun⟩
      | none => exact ⟨fun _ => ⟨rfl, rfl, rfl⟩, fun _ => rfl⟩

def Supported (p : Package) : Prop :=
  ∀ t ∈ p.types ++ p.imported, ∀ field ∈ t.fields, field.type.Supported

instance (p : Package) : Decidable p.Supported :=
  inferInstanceAs (Decidable (∀ t ∈ p.types ++ p.imported, ∀ field ∈ t.fields, _))

theorem Supported.index (h : p.Supported) : p.index.Supported := by
  apply Index.supported_of_forall
  intro t hmem
  exact h t (mem_index_iff.mp hmem)

/-- The search for cycles and the layout of every definition accept the same packages. -/
theorem check_eq_ok_iff_layouts (config : Config) (hsupported : p.Supported)
    (hnodup : ((p.types ++ p.imported).map (·.identity)).Nodup) :
    p.check = .ok () ↔
      ∀ t ∈ p.index.definitions, (p.index.layout? config t.identity).isSome := by
  have hstored : ∀ t ∈ p.index.definitions, p.index.find? t.identity = some t := fun t hmem =>
    Index.find?_of_mem (nodup_identities_index hnodup) hmem
  have hlayout : ∀ t ∈ p.index.definitions, ((p.index.layout? config t.identity).isSome ↔
      p.index.Closed t.identity ∧ p.index.Acyclic t.identity) := fun t hmem =>
    Index.isSome_layout?_iff_closed_and_acyclic config hsupported.index (hstored t hmem)
  rw [check_eq_ok_iff]
  constructor
  · rintro ⟨_, hknown, hacyclic⟩ t hmem
    apply (hlayout t hmem).mpr
    exact ⟨Index.closed_of_references_known hknown t.identity, fun identity _ => hacyclic identity⟩
  · intro hall
    refine ⟨hnodup, ?_, ?_⟩
    · intro t hmem reference hreference
      have hclosed := ((hlayout t hmem).mp (hall t hmem)).1
      exact hclosed _ (.step (Index.embeds_of_mem_references (hstored t hmem) hreference))
    · intro identity hreaches
      obtain ⟨t, hfind⟩ := hreaches.find?
      have hsome := hall t (Index.mem_of_find? hfind)
      rw [Index.identity_of_find? hfind] at hsome
      exact Index.not_reaches_self hsome hreaches

end Package

end CopyLint
