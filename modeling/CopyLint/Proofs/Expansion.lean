import CopyLint.Proofs.ConfigOrder
import CopyLint.Proofs.LeastLayout

/-! What a value of a type is made of: the scalars and pointers in it, at their offsets from its
start. A struct is aligned for everything inside it as long as all alignments are powers of two, so
that each part of a value comes to stand at a multiple of its own alignment. -/
namespace CopyLint

/-- A scalar or pointer inside a value. -/
structure Part extends Slot where
  ref : TypeRef
  deriving DecidableEq, Repr

namespace Part

def shift (offset : Int) (part : Part) : Part :=
  { part with start := offset + part.start }

def atSlots (slots : List Slot) (values : List (List Part)) : List Part :=
  (slots.zipWith (fun slot parts => parts.map (shift slot.start)) values).flatten

end Part

def Layout.elementSlots (elem : Layout) (length : Int) : List Slot :=
  (List.range length.toNat).map fun k : Nat => ⟨k * roundUp elem.size elem.align, elem⟩

/-- The parts of a reference, with `layouts` and `inner` for the definitions that it embeds. -/
def TypeRef.parts? (config : Config) (layouts : String → Option Layout)
    (inner : String → Option (List Part)) : TypeRef → Option (List Part)
  | .named identity _ => inner identity
  | .array elem length => do
    let layout ← elem.layout? config layouts
    let parts ← elem.parts? config layouts inner
    let slots := layout.elementSlots length
    pure (Part.atSlots slots (slots.map fun _ => parts))
  | ref => (ref.layout? config layouts).map fun layout => [⟨⟨0, layout⟩, ref⟩]

namespace Index

def slots? (config : Config) (index : Index) (fields : List Field) : Option (List Slot) :=
  (fields.mapM fun (field : Field) => field.type.layout? config (index.layout? config)).map
    Layout.slots

def partsWithin (config : Config) (index : Index) : Nat → String → Option (List Part)
  | 0, _ => none
  | depth + 1, identity => do
    let t ← index.find? identity
    let slots ← index.slots? config t.fields
    let values ← t.fields.mapM fun field =>
      field.type.parts? config (index.layout? config) (index.partsWithin config depth)
    pure (Part.atSlots slots values)

def parts? (config : Config) (index : Index) (identity : String) : Option (List Part) :=
  index.partsWithin config index.definitions.length identity

end Index

/-! Parts in a slot. -/

def TypeRef.IsLeaf : TypeRef → Prop
  | .scalar _ | .pointer _ _ | .rawPointer _ => True
  | .named _ _ | .array _ _ | .unsupported => False

/-- The part is a scalar or pointer with the layout that the platform gives it. -/
def Part.Genuine (config : Config) (part : Part) : Prop :=
  part.ref.IsLeaf ∧ ∀ inner, part.ref.layout? config inner = some part.layout

namespace Slot

/-- The parts lie in the slot one behind the other, aligned as the slot is. -/
structure Holds (config : Config) (slot : Slot) (parts : List Part) : Prop where
  genuine : ∀ part ∈ parts, part.Genuine config
  dvd_align : ∀ part ∈ parts, part.layout.align ∣ slot.layout.align
  dvd_start : ∀ part ∈ parts, part.layout.align ∣ part.start
  apart : parts.Pairwise fun part later => part.stop ≤ later.start
  bounds : ∀ part ∈ parts, slot.start ≤ part.start ∧ part.stop ≤ slot.stop

variable {config : Config}

theorem holds_nil (slot : Slot) : slot.Holds config [] :=
  ⟨by simp, by simp, by simp, .nil, by simp⟩

theorem holds_leaf {ref : TypeRef} {layout : Layout} (hleaf : ref.IsLeaf)
    (hlayout : ∀ inner, ref.layout? config inner = some layout) :
    Holds config ⟨0, layout⟩ [⟨⟨0, layout⟩, ref⟩] where
  genuine := by simpa using ⟨hleaf, hlayout⟩
  dvd_align := by simp
  dvd_start := by simp
  apart := List.pairwise_singleton _ _
  bounds := by simp

theorem Holds.shift {slot : Slot} {parts : List Part} (h : Holds config ⟨0, slot.layout⟩ parts)
    (hdvd : slot.layout.align ∣ slot.start) :
    slot.Holds config (parts.map (Part.shift slot.start)) where
  genuine := List.forall_mem_map.mpr h.genuine
  dvd_align := List.forall_mem_map.mpr h.dvd_align
  dvd_start := by
    refine List.forall_mem_map.mpr fun part hpart => ?_
    exact Int.dvd_add ((h.dvd_align part hpart).trans hdvd) (h.dvd_start part hpart)
  apart := by
    rw [List.pairwise_map]
    refine h.apart.imp fun {part later} hstop => ?_
    simp only [Slot.stop, Part.shift] at hstop ⊢
    omega
  bounds := by
    refine List.forall_mem_map.mpr fun part hpart => ?_
    have hbounds := h.bounds part hpart
    simp only [Slot.stop, Part.shift] at hbounds ⊢
    omega

theorem holds_flatten {slots : List Slot} {values : List (List Part)}
    (h : slots.Forall₂ (Holds config) values)
    (hapart : slots.Pairwise fun slot later => slot.stop ≤ later.start) {outer : Slot}
    (hdvd : ∀ slot ∈ slots, slot.layout.align ∣ outer.layout.align)
    (hbounds : ∀ slot ∈ slots, outer.start ≤ slot.start ∧ slot.stop ≤ outer.stop) :
    outer.Holds config values.flatten := by
  induction h generalizing outer with
  | nil => exact holds_nil outer
  | @cons slot parts slots values hslot _ ih =>
    rw [List.pairwise_cons] at hapart
    rw [List.forall_mem_cons] at hdvd hbounds
    have hrest : Holds config ⟨slot.stop, ⟨outer.stop - slot.stop, outer.layout.align⟩⟩
        values.flatten := by
      refine ih hapart.2 hdvd.2 fun later hlater => ⟨hapart.1 later hlater, ?_⟩
      have hstop := (hbounds.2 later hlater).2
      simp only [Slot.stop] at hstop ⊢
      omega
    have hbehind := hrest.bounds
    have hsame := (ih hapart.2 hdvd.2 hbounds.2).bounds
    rw [List.flatten_cons]
    refine ⟨?_, ?_, ?_, ?_, ?_⟩
    · exact List.forall_mem_append.mpr ⟨hslot.genuine, hrest.genuine⟩
    · refine List.forall_mem_append.mpr ⟨fun part hpart => ?_, hrest.dvd_align⟩
      exact (hslot.dvd_align part hpart).trans hdvd.1
    · exact List.forall_mem_append.mpr ⟨hslot.dvd_start, hrest.dvd_start⟩
    · refine List.pairwise_append.mpr ⟨hslot.apart, hrest.apart, fun part hpart later hlater => ?_⟩
      exact (hslot.bounds part hpart).2.trans (hbehind later hlater).1
    · refine List.forall_mem_append.mpr ⟨fun part hpart => ?_, hsame⟩
      have hpart := hslot.bounds part hpart
      exact ⟨hbounds.1.1.trans hpart.1, hpart.2.trans hbounds.1.2⟩

theorem holds_atSlots {slots : List Slot} {values : List (List Part)}
    (h : slots.Forall₂ (fun slot parts => Holds config ⟨0, slot.layout⟩ parts) values)
    (hstart : ∀ slot ∈ slots, slot.layout.align ∣ slot.start)
    (hapart : slots.Pairwise fun slot later => slot.stop ≤ later.start) {outer : Slot}
    (hdvd : ∀ slot ∈ slots, slot.layout.align ∣ outer.layout.align)
    (hbounds : ∀ slot ∈ slots, outer.start ≤ slot.start ∧ slot.stop ≤ outer.stop) :
    outer.Holds config (Part.atSlots slots values) := by
  refine holds_flatten ?_ hapart hdvd hbounds
  clear hapart hdvd hbounds
  induction h with
  | nil => exact .nil
  | @cons slot parts slots values hslot _ ih =>
    rw [List.forall_mem_cons] at hstart
    exact .cons (hslot.shift hstart.1) (ih hstart.2)

end Slot

structure Layout.Regular (config : Config) (layout : Layout) : Prop where
  aligned : layout.Aligned config
  nonneg : 0 ≤ layout.size
  power : IsPowerOfTwo layout.align

namespace Layout

variable {config : Config}

theorem Regular.le_stride {elem : Layout} (h : elem.Regular config) :
    elem.size ≤ roundUp elem.size elem.align ∧ 0 ≤ roundUp elem.size elem.align := by
  have hnonneg := h.nonneg
  have hle := le_roundUp elem.size h.power.pos
  exact ⟨hle, by omega⟩

theorem Regular.pairwise_elementSlots {elem : Layout} (h : elem.Regular config) (length : Int) :
    (elem.elementSlots length).Pairwise fun slot later => slot.stop ≤ later.start := by
  rw [elementSlots, List.pairwise_map]
  refine List.pairwise_lt_range.imp fun {k l} hlt => ?_
  obtain ⟨hsize, hstride⟩ := h.le_stride
  have hnext : (k + 1 : Int) * roundUp elem.size elem.align ≤ l * roundUp elem.size elem.align :=
    Int.mul_le_mul_of_nonneg_right (by omega) hstride
  rw [Int.add_mul, Int.one_mul] at hnext
  simp only [Slot.stop]
  omega

theorem Regular.bounds_elementSlots {elem : Layout} (h : elem.Regular config) (length : Int) :
    ∀ slot ∈ elem.elementSlots length,
      0 ≤ slot.start ∧ slot.stop ≤ (ofElements elem length).size := by
  refine List.forall_mem_map.mpr fun k hk => ?_
  have hk := List.mem_range.mp hk
  have hlength : ¬length ≤ 0 := by omega
  have hstride := h.le_stride.2
  have hlast : k * roundUp elem.size elem.align ≤ (length - 1) * roundUp elem.size elem.align :=
    Int.mul_le_mul_of_nonneg_right (by omega) hstride
  rw [Int.mul_comm (length - 1)] at hlast
  simp only [ofElements, hlength, if_false, Slot.stop]
  exact ⟨Int.mul_nonneg (by omega) hstride, by omega⟩

theorem Regular.holds_elements {elem : Layout} (helem : elem.Regular config) {parts : List Part}
    (h : Slot.Holds config ⟨0, elem⟩ parts) (length : Int) :
    Slot.Holds config ⟨0, ofElements elem length⟩
      (Part.atSlots (elem.elementSlots length)
        ((elem.elementSlots length).map fun _ => parts)) := by
  refine Slot.holds_atSlots ?_ ?_ (helem.pairwise_elementSlots length) ?_ ?_
  · rw [List.forall₂_map_right_iff, List.forall₂_same]
    exact List.forall_mem_map.mpr fun _ _ => h
  · exact List.forall_mem_map.mpr fun k _ => Int.dvd_mul_of_dvd_right (dvd_roundUp _ _)
  · exact List.forall_mem_map.mpr fun _ _ => Int.dvd_refl _
  · intro slot hslot
    simpa [Slot.stop] using helem.bounds_elementSlots length slot hslot

/-- The struct is aligned for its fields: the largest of powers of two is a multiple of all. -/
theorem holds_fields {layouts : List Layout} (hlayouts : ∀ field ∈ layouts, field.Regular config)
    (hstruct : IsPowerOfTwo (ofFields layouts).align) {values : List (List Part)}
    (h : layouts.Forall₂ (fun layout parts => Slot.Holds config ⟨0, layout⟩ parts) values) :
    Slot.Holds config ⟨0, ofFields layouts⟩ (Part.atSlots (slots layouts) values) := by
  have haligned := fun field hfield => (hlayouts field hfield).aligned
  have hnonneg := fun field hfield => (hlayouts field hfield).nonneg
  have hmap := map_layout_slotsAfter ⟨0, 1⟩ layouts
  refine Slot.holds_atSlots ?_ dvd_start_slotsAfter (pairwise_slotsAfter haligned hnonneg _) ?_ ?_
  · rw [← hmap, List.forall₂_map_left_iff] at h
    exact h
  · intro slot hslot
    have hmem : slot.layout ∈ layouts := hmap ▸ List.mem_map_of_mem hslot
    have hle : slot.layout.align ≤ (ofFields layouts).align := align_le_foldl_place.2 _ hmem
    exact (hlayouts _ hmem).power.dvd_of_le hstruct hle
  · intro slot hslot
    have hbounds := (bounds_slotsAfter haligned hnonneg ⟨0, 1⟩).2 slot hslot
    have htotal := le_roundUp (layouts.foldl place ⟨0, 1⟩).size hstruct.pos
    simp only [Slot.stop, ofFields] at hbounds htotal ⊢
    omega

end Layout

section

variable {config : Config} {index : Index} (hbinary : config.Binary)
  (hvalid : ∀ t ∈ index.definitions, t.Valid)
  (haligned : ∀ t ∈ index.definitions, ∀ field ∈ t.fields, ∀ s ∈ field.type.scalar?,
    s.PowerAligned config.wordSize)
include hbinary hvalid haligned

theorem Index.regular_layout? {identity : String} {layout : Layout}
    (h : index.layout? config identity = some layout) : layout.Regular config where
  aligned := aligned_layout? h
  nonneg := nonneg_layout? hvalid h
  power := (below_layout? (.refl config) hbinary hbinary hvalid haligned h h).power

theorem TypeRef.regular_layout? {ref : TypeRef} (href : ref.Valid)
    (hscalar : ∀ s ∈ ref.scalar?, s.PowerAligned config.wordSize) {layout : Layout}
    (h : ref.layout? config (index.layout? config) = some layout) : layout.Regular config where
  aligned := aligned_layout? (fun _ _ _ hlayout => Index.aligned_layout? hlayout) h
  nonneg := nonneg_layout? href (fun _ _ _ hlayout => Index.nonneg_layout? hvalid hlayout) h
  power := by
    refine (below_layout? (.refl config) hbinary hbinary href hscalar ?_ h h).power
    intro reference _ found found' hfound hfound'
    exact Index.below_layout? (.refl config) hbinary hbinary hvalid haligned hfound hfound'

/-- One case for each kind of reference; scalars and pointers are their own only part. -/
theorem TypeRef.exists_parts? {inner : String → Option (List Part)} {ref : TypeRef}
    (href : ref.Valid) (hscalar : ∀ s ∈ ref.scalar?, s.PowerAligned config.wordSize)
    (hinner : ∀ reference, ref.embedded = some reference → ∀ layout,
      index.layout? config reference.1 = some layout →
        ∃ parts, inner reference.1 = some parts ∧ Slot.Holds config ⟨0, layout⟩ parts)
    {layout : Layout} (h : ref.layout? config (index.layout? config) = some layout) :
    ∃ parts, ref.parts? config (index.layout? config) inner = some parts ∧
      Slot.Holds config ⟨0, layout⟩ parts := by
  induction ref generalizing layout with
  | named identity name => exact hinner (identity, name) rfl layout h
  | array elem length ih =>
    obtain ⟨found, hfound, rfl⟩ := Option.map_eq_some_iff.mp h
    obtain ⟨parts, hparts, hholds⟩ := ih href.1 hscalar hinner hfound
    have hregular := regular_layout? hbinary hvalid haligned href.1 hscalar hfound
    refine ⟨_, ?_, hregular.holds_elements hholds length⟩
    simp [parts?, hfound, hparts]
  | scalar | pointer | rawPointer =>
    cases h
    exact ⟨_, rfl, Slot.holds_leaf trivial fun _ => rfl⟩
  | unsupported => cases h

theorem Index.exists_partsWithin {depth : Nat} {identity : String} {layout : Layout}
    (h : index.layoutWithin config depth identity = some layout) :
    ∃ parts, index.partsWithin config depth identity = some parts ∧
      Slot.Holds config ⟨0, layout⟩ parts := by
  induction depth generalizing identity layout with
  | zero => cases h
  | succ depth ih =>
    have hregular := regular_layout? hbinary hvalid haligned (layout?_of_layoutWithin h)
    obtain ⟨t, layouts, hfind, hlayouts, rfl, hinner⟩ := exists_of_layoutWithin_succ h
    have hmem := mem_of_find? hfind
    have hparts : ∀ field ∈ t.fields, ∀ layout,
        field.type.layout? config (index.layout? config) = some layout → ∃ parts,
          field.type.parts? config (index.layout? config) (index.partsWithin config depth) =
            some parts ∧ Slot.Holds config ⟨0, layout⟩ parts := by
      intro field hfield layout hlayout
      refine TypeRef.exists_parts? hbinary hvalid haligned (hvalid t hmem field hfield)
        (haligned t hmem field hfield) (fun reference hreference inner hembedded => ?_) hlayout
      have hreferences := mem_references.mpr ⟨field, hfield, hreference⟩
      exact ih (hinner reference hreferences inner hembedded)
    have hregulars : ∀ layout ∈ layouts, layout.Regular config := by
      intro layout hlayout
      obtain ⟨field, hfield, hlayout⟩ := mem_of_mapM_eq_some hlayouts layout hlayout
      exact TypeRef.regular_layout? hbinary hvalid haligned (hvalid t hmem field hfield)
        (haligned t hmem field hfield) hlayout
    obtain ⟨values, hvalues, hholds⟩ := exists_mapM_of_forall hlayouts hparts
    refine ⟨_, ?_, Layout.holds_fields hregulars hregular.power hholds⟩
    simp [partsWithin, hfind, slots?, hlayouts, hvalues]

end

/-! What the expansion has in common with the rules that run. -/

namespace Sizing

variable {config : Config} {index : Index}

theorem answers_layoutOf {reference : String × String} {layout : Layout}
    (h : index.layout? config reference.1 = some layout) :
    index.Answers config (Memo.Correct config index) (layoutOf config index)
      (index.layout? config) reference := by
  obtain ⟨t, hfind⟩ := Index.find?_of_isSome_layout? (Option.isSome_of_eq_some h)
  have hidentity := Index.identity_of_find? hfind
  refine ⟨t, layout, hfind, h, Index.aligned_layout? h, ?_⟩
  rw [← hidentity] at hfind h
  have hyields : Yields (Memo.Correct config index) (layoutOf config index t) _ :=
    yields_layoutOf hfind
  rwa [Index.layoutOrFailure, h] at hyields

theorem run_fieldStarts {fields : List Field} {slots : List Slot}
    (h : index.slots? config fields = some slots) :
    ((fieldStarts config index (layoutOf config index) ⟨0, 1⟩ fields).run []).1 =
      .ok (slots.map (·.start)) := by
  obtain ⟨layouts, hlayouts, rfl⟩ := Option.map_eq_some_iff.mp h
  refine (yields_fieldStarts ?_ hlayouts ⟨0, 1⟩ [] (Memo.correct_nil config index)).1
  intro reference hreference
  obtain ⟨field, hfield, hembedded⟩ := mem_references.mp hreference
  have hsome := isSome_mapM_iff.mp (Option.isSome_of_eq_some hlayouts) field hfield
  obtain ⟨layout, hlayout⟩ := Option.isSome_iff_exists.mp
    (((TypeRef.isSome_layout?_iff _).mp hsome).2 reference hembedded)
  exact answers_layoutOf hlayout

end Sizing

theorem TypeRef.IsLeaf.embedded_eq_none {ref : TypeRef} (h : ref.IsLeaf) : ref.embedded = none := by
  cases ref with
  | scalar | pointer | rawPointer => rfl
  | named | array | unsupported => cases h

theorem Part.Genuine.run {config : Config} {part : Part} (h : part.Genuine config) (index : Index) :
    ((Sizing.sizeof config index part.ref).run []).1 = .ok part.layout.size ∧
      ((Sizing.alignof config index part.ref).run []).1 = .ok part.layout.align := by
  have hanswers : ∀ reference, part.ref.embedded = some reference →
      index.Answers config (Memo.Correct config index) (Sizing.layoutOf config index)
        (index.layout? config) reference := by
    intro reference hreference
    cases h.1.embedded_eq_none.symm.trans hreference
  have hlayout := h.2 (index.layout? config)
  have hcorrect := Memo.correct_nil config index
  exact ⟨(Sizing.yields_sizeWith hanswers hlayout [] hcorrect).1,
    (Sizing.yields_alignWith_of_layout? hanswers hlayout [] hcorrect).1⟩

/-- In a loaded package whose alignments are powers of two, every definition expands into scalars
and pointers that stand at multiples of their own alignments, one behind the other, from the start
of the struct to its footprint. -/
theorem parts_are_aligned_and_apart (source : String) (v : Value) (packages : List Package)
    (hload : loadPackages source v = .ok packages) (p : Package) (hp : p ∈ packages)
    (config : Config) (hbinary : config.Binary) (haligned : p.PowerAligned config)
    (t : TypeDef) (ht : t ∈ p.types ++ p.imported) :
    ∃ slots size parts,
      p.index.slots? config t.fields = some slots ∧
      ((Sizing.fieldStarts config p.index (Sizing.layoutOf config p.index) ⟨0, 1⟩ t.fields).run
        []).1 = .ok (slots.map (·.start)) ∧
      ((Sizing.footprint config p.index t).run []).1 = .ok size ∧
      p.index.parts? config t.identity = some parts ∧
      (∀ part ∈ parts, part.ref.IsLeaf ∧
        ((Sizing.sizeof config p.index part.ref).run []).1 = .ok part.layout.size ∧
        ((Sizing.alignof config p.index part.ref).run []).1 = .ok part.layout.align ∧
        part.layout.align ∣ part.start ∧ 0 ≤ part.start ∧ part.stop ≤ size) ∧
      parts.Pairwise fun part later => part.stop ≤ later.start := by
  have hsound := sound_of_loadPackages hload hp
  have hmem : t ∈ p.index.definitions := Package.mem_index_iff.mpr ht
  obtain ⟨layout, hlayout⟩ := hsound.exists_layout config hmem
  have hfootprint := (hsound.yields_footprint config hmem [] (Memo.correct_nil config p.index)).1
  rw [Index.structSize_of_layout? hlayout] at hfootprint
  obtain ⟨parts, hparts, hholds⟩ := Index.exists_partsWithin hbinary
    (fun u hu => hsound.valid u (Package.mem_index_iff.mp hu))
    (fun u hu => haligned u (Package.mem_index_iff.mp hu)) hlayout
  rw [Index.layout?_of_find? (hsound.find? hmem)] at hlayout
  obtain ⟨layouts, hlayouts, _⟩ := Option.map_eq_some_iff.mp hlayout
  have hslots : p.index.slots? config t.fields = some (Layout.slots layouts) := by
    simp [Index.slots?, hlayouts]
  refine ⟨_, layout.size, parts, hslots, Sizing.run_fieldStarts hslots, hfootprint, hparts,
    fun part hpart => ?_, hholds.apart⟩
  have hgenuine := hholds.genuine part hpart
  have hrun := hgenuine.run p.index
  have hbounds := hholds.bounds part hpart
  have hstop : Slot.stop ⟨0, layout⟩ = layout.size := Int.zero_add layout.size
  rw [hstop] at hbounds
  exact ⟨hgenuine.1, hrun.1, hrun.2, hholds.dvd_start part hpart, hbounds⟩

theorem parts_are_aligned_and_apart_frames :
    loadPackages "" (Document.ofPackages [framesPackage]) = .ok [framesPackage] ∧
    Config.Binary {} ∧ framesPackage.PowerAligned {} ∧
    ∃ parts, framesPackage.index.parts? {} "Frame" = some parts ∧
      parts.map (fun part => (part.start, part.layout.size, part.layout.align)) =
        [(0, 1, 1), (8, 16, 8), (24, 8, 8), (32, 1, 1), (40, 8, 8), (48, 1, 1), (56, 8, 8),
          (64, 1, 1)] ∧
      (∀ part ∈ parts, part.layout.align ∣ part.start ∧ 0 ≤ part.start ∧ part.stop ≤ 72) ∧
      parts.Pairwise fun part later => part.stop ≤ later.start := by
  have hcheck : framesPackage.check = .ok () :=
    (Package.check_eq_ok_iff_layouts {} (by decide) (by decide)).mpr (by decide)
  have hload : loadPackages "" (Document.ofPackages [framesPackage]) = .ok [framesPackage] :=
    loadPackages_eq_ok rfl (List.forall_mem_singleton.mpr hcheck) ""
  have hbinary : Config.Binary {} := ⟨by decide, by decide⟩
  have haligned : framesPackage.PowerAligned {} := by decide
  refine ⟨hload, hbinary, haligned, ?_⟩
  obtain ⟨_, size, parts, _, _, hsize, hparts, hpart, hapart⟩ :=
    parts_are_aligned_and_apart "" _ _ hload framesPackage (by simp) {} hbinary haligned
      ⟨"Frame", "Frame", [⟨"head", .named "Head" "Head"⟩,
        ⟨"parts", .array (.named "q.Part" "Part") 3⟩]⟩ (by decide)
  have hfound : (framesPackage.index.parts? {} "Frame").map (·.map fun part =>
      (part.start, part.layout.size, part.layout.align)) = some
        [(0, 1, 1), (8, 16, 8), (24, 8, 8), (32, 1, 1), (40, 8, 8), (48, 1, 1), (56, 8, 8),
          (64, 1, 1)] := by
    decide +kernel
  have htotal : Except.ok size = (Except.ok 72 : Except LayoutError Int) :=
    hsize.symm.trans (by decide +kernel)
  cases htotal
  rw [hparts, Option.map_some, Option.some.injEq] at hfound
  exact ⟨parts, hparts, hfound, fun part hmem => (hpart part hmem).2.2.2, hapart⟩

end CopyLint
