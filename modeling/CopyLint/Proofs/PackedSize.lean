import Mathlib.Algebra.BigOperators.Group.List.Basic
import Mathlib.Tactic.Ring
import CopyLint.Proofs.Expansion

/-! The least that a struct can take: the bytes of the scalars and pointers in it, each counted as
often as a value of the struct holds it. Alignment only adds padding to them, and where nothing is
aligned there is no padding. -/
namespace CopyLint

/-- The scalars and pointers in a value of the type, with `inner` for the definitions that it
embeds. -/
def TypeRef.leaves? (inner : String → Option (List TypeRef)) : TypeRef → Option (List TypeRef)
  | .named identity _ => inner identity
  | .array elem length =>
    (elem.leaves? inner).map fun leaves => (List.replicate length.toNat leaves).flatten
  | .unsupported => none
  | ref => some [ref]

namespace Index

def leavesWithin (index : Index) : Nat → String → Option (List TypeRef)
  | 0, _ => none
  | depth + 1, identity => do
    let t ← index.find? identity
    let values ← t.fields.mapM fun field => field.type.leaves? (index.leavesWithin depth)
    pure values.flatten

def leaves? (index : Index) (identity : String) : Option (List TypeRef) :=
  index.leavesWithin index.definitions.length identity

end Index

def TypeRef.leafBytes (config : Config) : TypeRef → Int
  | .scalar s => s.size + s.words * config.wordSize
  | .pointer _ _ | .rawPointer _ => config.wordSize
  | .named _ _ | .array _ _ | .unsupported => 0

def packedSize (config : Config) (leaves : List TypeRef) : Int :=
  (leaves.map (TypeRef.leafBytes config)).sum

section

variable (config : Config)

@[simp] theorem packedSize_nil : packedSize config [] = 0 :=
  rfl

@[simp] theorem packedSize_append (before after : List TypeRef) :
    packedSize config (before ++ after) = packedSize config before + packedSize config after := by
  simp [packedSize]

theorem packedSize_replicate (n : Nat) (leaves : List TypeRef) :
    packedSize config (List.replicate n leaves).flatten = n * packedSize config leaves := by
  simp [packedSize, List.map_flatten, List.sum_flatten]

end

namespace Layout

variable {config : Config}

theorem roundUp_one (offset : Int) : roundUp offset 1 = offset := by
  simp [roundUp]

/-- The layout has room for the leaves, and unless something is aligned it has no more than that. -/
structure Covers (config : Config) (layout : Layout) (leaves : List TypeRef) : Prop where
  isLeaf : ∀ leaf ∈ leaves, leaf.IsLeaf
  packed_le : packedSize config leaves ≤ layout.size
  eq_packed : config.maxAlign = 1 → layout.size = packedSize config leaves

theorem Aligned.align_eq_one {layout : Layout} (h : layout.Aligned config)
    (hmax : config.maxAlign = 1) : layout.align = 1 := by
  unfold Aligned at h
  omega

theorem Covers.place {sofar field : Layout} {before leaves : List TypeRef}
    (hsofar : sofar.Covers config before) (haligned : field.Aligned config)
    (hfield : field.Covers config leaves) :
    (sofar.place field).Covers config (before ++ leaves) where
  isLeaf := List.forall_mem_append.mpr ⟨hsofar.isLeaf, hfield.isLeaf⟩
  packed_le := by
    have hpadded := le_roundUp sofar.size haligned.1
    have hbefore := hsofar.packed_le
    have hleaves := hfield.packed_le
    simp only [Layout.place, packedSize_append]
    omega
  eq_packed := by
    intro hmax
    simp only [Layout.place, packedSize_append, haligned.align_eq_one hmax, roundUp_one,
      hsofar.eq_packed hmax, hfield.eq_packed hmax]

theorem Covers.foldl_place {layouts : List Layout} {values : List (List TypeRef)}
    (h : layouts.Forall₂ (Covers config) values)
    (haligned : ∀ field ∈ layouts, field.Aligned config) {sofar : Layout}
    {before : List TypeRef} (hsofar : sofar.Covers config before) :
    (layouts.foldl Layout.place sofar).Covers config (before ++ values.flatten) := by
  induction h generalizing sofar before with
  | nil => simpa using hsofar
  | cons hfield _ ih =>
    rw [List.forall_mem_cons] at haligned
    rw [List.foldl_cons, List.flatten_cons, ← List.append_assoc]
    exact ih haligned.2 (hsofar.place haligned.1 hfield)

theorem covers_ofFields {layouts : List Layout} {values : List (List TypeRef)}
    (h : layouts.Forall₂ (Covers config) values)
    (haligned : ∀ field ∈ layouts, field.Aligned config) :
    (ofFields layouts).Covers config values.flatten := by
  have hempty : Covers config ⟨0, 1⟩ [] := ⟨by simp, by simp, by simp⟩
  have hplaced := Covers.foldl_place h haligned hempty
  have hstruct := aligned_foldl_place haligned (aligned_empty config)
  refine ⟨hplaced.isLeaf, hplaced.packed_le.trans (le_roundUp _ hstruct.1), fun hmax => ?_⟩
  unfold ofFields
  dsimp only
  rw [hstruct.align_eq_one hmax, roundUp_one]
  exact hplaced.eq_packed hmax

theorem Covers.ofElements {elem : Layout} {leaves : List TypeRef} (h : elem.Covers config leaves)
    (haligned : elem.Aligned config) (length : Int) :
    (ofElements elem length).Covers config (List.replicate length.toNat leaves).flatten := by
  have hleaf : ∀ leaf ∈ (List.replicate length.toNat leaves).flatten, leaf.IsLeaf := by
    simp only [List.mem_flatten, List.mem_replicate]
    rintro leaf ⟨_, ⟨-, rfl⟩, hmem⟩
    exact h.isLeaf leaf hmem
  by_cases hempty : length ≤ 0
  · have hsize : (Layout.ofElements elem length).size = 0 := if_pos hempty
    have hpacked : packedSize config (List.replicate length.toNat leaves).flatten = 0 := by
      simp [Int.toNat_of_nonpos hempty]
    exact ⟨hleaf, by omega, by omega⟩
  · have hsize : (Layout.ofElements elem length).size =
        roundUp elem.size elem.align * (length - 1) + elem.size := if_neg hempty
    have hpacked : packedSize config (List.replicate length.toNat leaves).flatten =
        packedSize config leaves * (length - 1) + packedSize config leaves := by
      rw [packedSize_replicate, Int.toNat_of_nonneg (by omega)]
      ring
    refine ⟨hleaf, ?_, fun hmax => ?_⟩
    · have hle := h.packed_le
      have hpadded := le_roundUp elem.size haligned.1
      have hstrides : packedSize config leaves * (length - 1) ≤
          roundUp elem.size elem.align * (length - 1) :=
        Int.mul_le_mul_of_nonneg_right (by omega) (by omega)
      omega
    · rw [hsize, hpacked, haligned.align_eq_one hmax, roundUp_one, h.eq_packed hmax]

end Layout

section

variable {config : Config} {index : Index}

theorem TypeRef.exists_leaves? {inner : String → Option (List TypeRef)} {ref : TypeRef}
    (hinner : ∀ reference, ref.embedded = some reference → ∀ layout,
      index.layout? config reference.1 = some layout →
        ∃ leaves, inner reference.1 = some leaves ∧ layout.Covers config leaves)
    {layout : Layout} (h : ref.layout? config (index.layout? config) = some layout) :
    ∃ leaves, ref.leaves? inner = some leaves ∧ layout.Covers config leaves := by
  induction ref generalizing layout with
  | named identity name => exact hinner (identity, name) rfl layout h
  | array elem length ih =>
    obtain ⟨found, hfound, rfl⟩ := Option.map_eq_some_iff.mp h
    obtain ⟨leaves, hleaves, hcovers⟩ := ih hinner hfound
    have haligned : found.Aligned config :=
      aligned_layout? (fun _ _ _ hlayout => Index.aligned_layout? hlayout) hfound
    exact ⟨_, by simp [leaves?, hleaves], hcovers.ofElements haligned length⟩
  | scalar | pointer | rawPointer =>
    cases h
    refine ⟨_, rfl, ?_, ?_, ?_⟩ <;> simp [IsLeaf, packedSize, leafBytes, Scalar.bytes]
  | unsupported => cases h

theorem Index.exists_leavesWithin {depth : Nat} {identity : String} {layout : Layout}
    (h : index.layoutWithin config depth identity = some layout) :
    ∃ leaves, index.leavesWithin depth identity = some leaves ∧ layout.Covers config leaves := by
  induction depth generalizing identity layout with
  | zero => cases h
  | succ depth ih =>
    obtain ⟨t, layouts, hfind, hlayouts, rfl, hinner⟩ := exists_of_layoutWithin_succ h
    have hleaves : ∀ field ∈ t.fields, ∀ layout,
        field.type.layout? config (index.layout? config) = some layout → ∃ leaves,
          field.type.leaves? (index.leavesWithin depth) = some leaves ∧
            layout.Covers config leaves := by
      intro field hfield layout hlayout
      refine TypeRef.exists_leaves? (fun reference hreference inner hembedded => ?_) hlayout
      have hreferences := mem_references.mpr ⟨field, hfield, hreference⟩
      exact ih (hinner reference hreferences inner hembedded)
    have haligned : ∀ layout ∈ layouts, layout.Aligned config := by
      intro layout hlayout
      obtain ⟨field, _, hlayout⟩ := mem_of_mapM_eq_some hlayouts layout hlayout
      exact TypeRef.aligned_layout? (fun _ _ _ hfound => aligned_layout? hfound) hlayout
    obtain ⟨values, hvalues, hcovers⟩ := exists_mapM_of_forall hlayouts hleaves
    refine ⟨_, ?_, Layout.covers_ofFields hcovers haligned⟩
    simp [leavesWithin, hfind, hvalues]

end

/-- A struct of a loaded package takes at least the bytes of the scalars and pointers in it, each
counted as often as a value of the struct holds it, and no more than these if nothing is aligned. -/
theorem footprint_covers_packed_size (source : String) (v : Value) (packages : List Package)
    (hload : loadPackages source v = .ok packages) (p : Package) (hp : p ∈ packages)
    (config : Config) (t : TypeDef) (ht : t ∈ p.types ++ p.imported) :
    ∃ size leaves, ((Sizing.footprint config p.index t).run []).1 = .ok size ∧
      p.index.leaves? t.identity = some leaves ∧ (∀ leaf ∈ leaves, leaf.IsLeaf) ∧
      packedSize config leaves ≤ size ∧
      (config.maxAlign = 1 → size = packedSize config leaves) := by
  have hsound := sound_of_loadPackages hload hp
  have hmem : t ∈ p.index.definitions := Package.mem_index_iff.mpr ht
  obtain ⟨layout, hlayout⟩ := hsound.exists_layout config hmem
  have hfootprint := (hsound.yields_footprint config hmem [] (Memo.correct_nil config p.index)).1
  rw [Index.structSize_of_layout? hlayout] at hfootprint
  obtain ⟨leaves, hleaves, hcovers⟩ := Index.exists_leavesWithin hlayout
  exact ⟨_, leaves, hfootprint, hleaves, hcovers.isLeaf, hcovers.packed_le, hcovers.eq_packed⟩

def packingPlatform : Config :=
  { narrowPlatform with maxAlign := 1, maxAlign_pos := Int.one_pos }

def frameOfParts : TypeDef where
  identity := "Frame"
  name := "Frame"
  fields := [⟨"head", .named "Head" "Head"⟩, ⟨"parts", .array (.named "q.Part" "Part") 3⟩]

theorem footprint_covers_packed_size_frames :
    loadPackages "" (Document.ofPackages [framesPackage]) = .ok [framesPackage] ∧
    frameOfParts ∈ framesPackage.types ∧
    ∃ leaves, framesPackage.index.leaves? "Frame" = some leaves ∧
      packedSize packingPlatform leaves = 36 ∧
      ((Sizing.footprint packingPlatform framesPackage.index frameOfParts).run []).1 = .ok 36 ∧
      ((Sizing.footprint narrowPlatform framesPackage.index frameOfParts).run []).1 = .ok 48 ∧
      packedSize narrowPlatform leaves ≤ 48 := by
  have hcheck : framesPackage.check = .ok () :=
    (Package.check_eq_ok_iff_layouts {} (by decide) (by decide)).mpr (by decide)
  have hload : loadPackages "" (Document.ofPackages [framesPackage]) = .ok [framesPackage] :=
    loadPackages_eq_ok rfl (List.forall_mem_singleton.mpr hcheck) ""
  have hcovers := fun config => footprint_covers_packed_size "" _ _ hload framesPackage (by simp)
    config frameOfParts (by decide)
  obtain ⟨size, leaves, hsize, hleaves, _, _, hpacked⟩ := hcovers packingPlatform
  obtain ⟨padded, leaves', hpadded, hleaves', _, hle, _⟩ := hcovers narrowPlatform
  cases hleaves.symm.trans hleaves'
  have htotal : Except.ok size = (Except.ok 36 : Except LayoutError Int) :=
    hsize.symm.trans (by decide +kernel)
  have htotal' : Except.ok padded = (Except.ok 48 : Except LayoutError Int) :=
    hpadded.symm.trans (by decide +kernel)
  cases htotal
  cases htotal'
  exact ⟨hload, by decide, leaves, hleaves, (hpacked rfl).symm, hsize, hpadded, hle⟩

end CopyLint
