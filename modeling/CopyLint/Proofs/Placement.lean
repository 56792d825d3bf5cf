import Mathlib.Data.List.Chain
import CopyLint.Proofs.LayoutRecursion

/-! Places of fields. A struct's fields are put one behind the other, each at the next multiple of
its alignment. The places do not overlap, and no other places for the same fields in the same order
end earlier. -/
namespace CopyLint

structure Slot where
  start : Int
  layout : Layout
  deriving DecidableEq, Repr

namespace Slot

def stop (slot : Slot) : Int :=
  slot.start + slot.layout.size

def lastStop (offset : Int) : List Slot → Int
  | [] => offset
  | slot :: rest => lastStop slot.stop rest

/-- The slots stand in order at multiples of their alignments, within a total that is a multiple of
the alignment of the whole. -/
structure Placed (align total : Int) (slots : List Slot) : Prop where
  nonneg : ∀ slot ∈ slots, 0 ≤ slot.start
  aligned : ∀ slot ∈ slots, slot.layout.align ∣ slot.start
  apart : slots.IsChain fun slot next => slot.stop ≤ next.start
  total_dvd : align ∣ total
  fits : lastStop 0 slots ≤ total

end Slot

namespace Layout

def slotsAfter (sofar : Layout) : List Layout → List Slot
  | [] => []
  | field :: rest =>
    ⟨roundUp sofar.size field.align, field⟩ :: slotsAfter (sofar.place field) rest

def slots (fields : List Layout) : List Slot :=
  slotsAfter ⟨0, 1⟩ fields

variable {config : Config}

theorem map_layout_slotsAfter (sofar : Layout) (fields : List Layout) :
    (slotsAfter sofar fields).map (·.layout) = fields := by
  induction fields generalizing sofar with
  | nil => rfl
  | cons field rest ih => simp [slotsAfter, ih]

theorem dvd_start_slotsAfter {sofar : Layout} {fields : List Layout} :
    ∀ slot ∈ slotsAfter sofar fields, slot.layout.align ∣ slot.start := by
  induction fields generalizing sofar with
  | nil => simp [slotsAfter]
  | cons field rest ih =>
    rw [slotsAfter, List.forall_mem_cons]
    exact ⟨dvd_roundUp sofar.size field.align, ih⟩

theorem lastStop_slotsAfter (sofar : Layout) (fields : List Layout) :
    Slot.lastStop sofar.size (slotsAfter sofar fields) = (fields.foldl place sofar).size := by
  induction fields generalizing sofar with
  | nil => rfl
  | cons field rest ih => exact ih (sofar.place field)

theorem align_foldl_place (sofar : Layout) (fields : List Layout) :
    (fields.foldl place sofar).align =
      ((slotsAfter sofar fields).map (·.layout.align)).foldl max sofar.align := by
  induction fields generalizing sofar with
  | nil => rfl
  | cons field rest ih => exact ih (sofar.place field)

theorem align_le_foldl_place {fields : List Layout} {sofar : Layout} :
    sofar.align ≤ (fields.foldl place sofar).align ∧
      ∀ field ∈ fields, field.align ≤ (fields.foldl place sofar).align := by
  induction fields generalizing sofar with
  | nil => simp
  | cons field rest ih =>
    obtain ⟨hsofar, hrest⟩ := @ih (sofar.place field)
    have hplace : (sofar.place field).align = max sofar.align field.align := rfl
    rw [List.forall_mem_cons, List.foldl_cons]
    exact ⟨by omega, by omega, hrest⟩

section

variable {fields : List Layout} (haligned : ∀ field ∈ fields, field.Aligned config)
  (hsize : ∀ field ∈ fields, 0 ≤ field.size)
include haligned hsize

theorem bounds_slotsAfter (sofar : Layout) :
    sofar.size ≤ (fields.foldl place sofar).size ∧
      ∀ slot ∈ slotsAfter sofar fields,
        sofar.size ≤ slot.start ∧ slot.stop ≤ (fields.foldl place sofar).size := by
  induction fields generalizing sofar with
  | nil => simp [slotsAfter]
  | cons field rest ih =>
    rw [List.forall_mem_cons] at haligned hsize
    have hstart : sofar.size ≤ roundUp sofar.size field.align := le_roundUp _ haligned.1.1
    have hplace : (sofar.place field).size = roundUp sofar.size field.align + field.size := rfl
    obtain ⟨hend, hslots⟩ := ih haligned.2 hsize.2 (sofar.place field)
    have hfield := hsize.1
    rw [slotsAfter, List.forall_mem_cons, List.foldl_cons]
    refine ⟨by omega, ⟨hstart, hend⟩, fun slot hslot => ?_⟩
    have hslot := hslots slot hslot
    exact ⟨by omega, hslot.2⟩

theorem pairwise_slotsAfter (sofar : Layout) :
    (slotsAfter sofar fields).Pairwise fun slot later => slot.stop ≤ later.start := by
  induction fields generalizing sofar with
  | nil => exact .nil
  | cons field rest ih =>
    rw [List.forall_mem_cons] at haligned hsize
    refine .cons (fun later hlater => ?_) (ih haligned.2 hsize.2 (sofar.place field))
    exact ((bounds_slotsAfter haligned.2 hsize.2 (sofar.place field)).2 later hlater).1

theorem placed_slots :
    Slot.Placed (ofFields fields).align (ofFields fields).size (slots fields) := by
  have hpos : 0 < (fields.foldl place ⟨0, 1⟩).align :=
    (aligned_foldl_place haligned (aligned_empty config)).1
  refine ⟨fun slot hslot => ?_, dvd_start_slotsAfter, ?_, dvd_roundUp _ _, ?_⟩
  · exact ((bounds_slotsAfter haligned hsize ⟨0, 1⟩).2 slot hslot).1
  · exact (pairwise_slotsAfter haligned hsize ⟨0, 1⟩).isChain
  · rw [slots, lastStop_slotsAfter ⟨0, 1⟩ fields]
    exact le_roundUp _ hpos

end

theorem foldl_place_le {fields : List Layout} (haligned : ∀ field ∈ fields, field.Aligned config)
    {sofar : Layout} {slots : List Slot} (hlayouts : slots.map (·.layout) = fields)
    {offset : Int} (hoffset : sofar.size ≤ offset)
    (hdvd : ∀ slot ∈ slots, slot.layout.align ∣ slot.start)
    (hfirst : ∀ slot ∈ slots.head?, offset ≤ slot.start)
    (hapart : slots.IsChain fun slot next => slot.stop ≤ next.start) :
    (fields.foldl place sofar).size ≤ Slot.lastStop offset slots := by
  induction slots generalizing fields sofar offset with
  | nil =>
    subst hlayouts
    exact hoffset
  | cons slot rest ih =>
    subst hlayouts
    rw [List.map_cons, List.forall_mem_cons] at haligned
    rw [List.forall_mem_cons] at hdvd
    have hstart := hfirst slot rfl
    have hleast : roundUp sofar.size slot.layout.align ≤ slot.start :=
      roundUp_le haligned.1.1 hdvd.1 (by omega)
    have hstop : (sofar.place slot.layout).size ≤ slot.stop := by
      unfold place Slot.stop
      dsimp only
      omega
    exact ih haligned.2 rfl hstop hdvd.2 (List.isChain_cons.mp hapart).1 hapart.tail

/-- The struct is not larger than any total in which the same fields can be placed. -/
theorem size_le_of_placed {fields : List Layout}
    (haligned : ∀ field ∈ fields, field.Aligned config) {slots : List Slot}
    (hlayouts : slots.map (·.layout) = fields) {total : Int}
    (hplaced : Slot.Placed (ofFields fields).align total slots) :
    (ofFields fields).size ≤ total := by
  have hpos : 0 < (fields.foldl place ⟨0, 1⟩).align :=
    (aligned_foldl_place haligned (aligned_empty config)).1
  have hfirst : ∀ slot ∈ slots.head?, 0 ≤ slot.start := fun slot hslot =>
    hplaced.nonneg slot (List.mem_of_mem_head? hslot)
  have hend : (fields.foldl place ⟨0, 1⟩).size ≤ Slot.lastStop 0 slots :=
    foldl_place_le haligned hlayouts (Int.le_refl 0) hplaced.aligned hfirst hplaced.apart
  exact roundUp_le hpos hplaced.total_dvd (Int.le_trans hend hplaced.fits)

end Layout

end CopyLint
