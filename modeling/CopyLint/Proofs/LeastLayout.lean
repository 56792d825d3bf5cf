import Mathlib.Data.List.Forall2
import CopyLint.Proofs.MemoHistory
import CopyLint.Proofs.Placement

/-! The layout of a struct, whatever was asked before. Its fields are placed without overlap at
multiples of their alignments, and no other placement in the same order takes fewer bytes. -/
namespace CopyLint

namespace Sizing

variable {config : Config} {index : Index} {memo later : Memo} {t : TypeDef}

def fieldStarts (config : Config) (index : Index) (layoutOf : TypeDef → Sizing Layout)
    (sofar : Layout) : List Field → Sizing (List Int)
  | [] => pure []
  | field :: rest => do
    let align ← alignWith config index layoutOf field.type
    let start ← roundedUp sofar.size align
    let next ← placeField config index layoutOf sofar field
    let starts ← fieldStarts config index layoutOf next rest
    pure (start :: starts)

theorem yields_fieldStarts {inv : Memo → Prop} {layoutOf : TypeDef → Sizing Layout}
    {inner : String → Option Layout} {fields : List Field} {layouts : List Layout}
    (hinner : ∀ reference ∈ references fields,
      index.Answers config inv layoutOf inner reference)
    (hlayouts : fields.mapM (fun field => field.type.layout? config inner) = some layouts)
    (sofar : Layout) :
    Yields inv (fieldStarts config index layoutOf sofar fields)
      (.ok ((Layout.slotsAfter sofar layouts).map (·.start))) := by
  induction fields generalizing sofar layouts with
  | nil =>
    cases hlayouts
    exact yields_pure _
  | cons field rest ih =>
    simp only [references_cons, List.mem_append, Option.mem_toList, or_imp, forall_and] at hinner
    rw [List.mapM_cons] at hlayouts
    obtain ⟨layout, hlayout, hlayouts⟩ := Option.bind_eq_some_iff.mp hlayouts
    obtain ⟨others, hothers, hlayouts⟩ := Option.bind_eq_some_iff.mp hlayouts
    cases hlayouts
    have hplace := yields_placeField hinner.1 sofar
    rw [hlayout] at hplace
    rw [fieldStarts]
    apply (yields_alignWith_of_layout? hinner.1 hlayout).bind
    apply (yields_roundedUp sofar.size (aligned_of_answers hinner.1 hlayout).1).bind
    apply Yields.bind hplace
    apply (ih hinner.2 hothers (sofar.place layout)).bind
    exact yields_pure _

theorem run_of_layout? {maker : String → Option TypeDef} (hmade : memo.Made config index maker)
    {ref : TypeRef} {layout : Layout}
    (hlayout : ref.layout? config (memo.layoutIn index) = some layout) :
    (sizeof config index ref).run memo = (.ok layout.size, memo) ∧
      (alignof config index ref).run memo = (.ok layout.align, memo) := by
  have hanswers := answers_of_layout? hmade (recalls_layoutOf config index memo)
    (Option.isSome_of_eq_some hlayout)
  obtain ⟨hsize, hsizeMemo⟩ := yields_sizeWith hanswers hlayout memo rfl
  obtain ⟨halign, halignMemo⟩ := yields_alignWith_of_layout? hanswers hlayout memo rfl
  exact ⟨Prod.ext hsize hsizeMemo, Prod.ext halign halignMemo⟩

/-- What is known of the fields of a definition once it has a footprint, if no definition with other
fields was laid out under its identity before. -/
theorem exists_fields_of_footprint {history : List Query} {size : Int}
    (hown : ∀ u, laidOut config index t.identity history [] = some u → u.fields = t.fields)
    (h : (footprint config index t).run (memoAfter config index history []) = (.ok size, memo)) :
    ∃ maker layouts, memo.Made config index maker ∧
      t.fields.mapM (fun field => field.type.layout? config (memo.layoutIn index)) = some layouts ∧
      (Layout.ofFields layouts).size = size ∧
      (layoutOf config index t).run (memoAfter config index history []) =
        (.ok (Layout.ofFields layouts), memo) := by
  have hhistory := made_memoAfter (Memo.made_nil config index fun _ => none) history
  have hmade := (Query.made_answer hhistory (.footprint t)).1
  rw [Query.answer, h] at hmade
  rw [footprint_run] at h
  cases hrun : (layoutOf config index t).run (memoAfter config index history []) with
  | mk answer later =>
    rw [hrun] at h
    cases answer with
    | error cause => cases h
    | ok layout =>
      cases h
      obtain ⟨_, u, layouts, hmaker, hlayouts, rfl⟩ := hmade _ _ (find?_of_layoutOf hrun)
      have hfields : u.fields = t.fields := by
        unfold Query.makers at hmaker
        split at hmaker
        · exact hown u hmaker
        · simp only [Query.subject, if_true, Option.some.injEq] at hmaker
          rw [hmaker]
      rw [hfields] at hlayouts
      exact ⟨_, layouts, hmade, hlayouts, rfl, rfl⟩

/-- After any questions, a definition that has a footprint is laid out with the largest alignment of
its fields, at offsets that are multiples of theirs and do not overlap; and the footprint is the
least total for which there are such offsets. Only a definition that comes too late, when one with
other fields was laid out under its identity, does not get a layout of its own. -/
theorem layout_is_valid_and_least (config : Config) (index : Index) (history : List Query)
    (t : TypeDef)
    (hown : ∀ u, laidOut config index t.identity history [] = some u → u.fields = t.fields)
    (size : Int) (memo : Memo)
    (hsize : (footprint config index t).run (memoAfter config index history []) = (.ok size, memo))
    (hnonneg : ∀ field ∈ t.fields, ∀ n,
      ((sizeof config index field.type).run memo).1 = .ok n → 0 ≤ n) :
    ∃ align slots,
      (layoutOf config index t).run (memoAfter config index history []) =
        (.ok ⟨size, align⟩, memo) ∧
      t.fields.Forall₂ (fun field slot =>
        (sizeof config index field.type).run memo = (.ok slot.layout.size, memo) ∧
        (alignof config index field.type).run memo = (.ok slot.layout.align, memo)) slots ∧
      (fieldStarts config index remembered ⟨0, 1⟩ t.fields).run memo =
        (.ok (slots.map (·.start)), memo) ∧
      align = (slots.map (·.layout.align)).foldl max 1 ∧ 1 ≤ align ∧ align ≤ config.maxAlign ∧
      Slot.Placed align size slots ∧
      ∀ others total, others.map (·.layout) = slots.map (·.layout) →
        Slot.Placed align total others → size ≤ total := by
  obtain ⟨maker, layouts, hmade, hlayouts, rfl, hrun⟩ := exists_fields_of_footprint hown hsize
  have hsome := Option.isSome_of_eq_some hlayouts
  have hstarts := yields_fieldStarts (answers_of_mapM_layout? hmade (recalls_remembered memo) hsome)
    hlayouts ⟨0, 1⟩ memo rfl
  have haligned : ∀ layout ∈ layouts, layout.Aligned config :=
    aligned_of_mapM_layout? hmade hlayouts
  have hsizes : ∀ layout ∈ layouts, 0 ≤ layout.size := by
    intro layout hmem
    obtain ⟨field, hfield, hlayout⟩ := mem_of_mapM_eq_some hlayouts layout hmem
    exact hnonneg field hfield layout.size (by rw [(run_of_layout? hmade hlayout).1])
  have hslots := Layout.map_layout_slotsAfter ⟨0, 1⟩ layouts
  obtain ⟨hone, hmax⟩ := Layout.aligned_ofFields haligned
  refine ⟨(Layout.ofFields layouts).align, Layout.slots layouts, hrun, ?_,
    Prod.ext hstarts.1 hstarts.2, ?_, hone, hmax, Layout.placed_slots haligned hsizes, ?_⟩
  · have hfields := mapM_eq_some_iff.mp hlayouts
    rw [← hslots, List.forall₂_map_right_iff] at hfields
    exact hfields.imp fun _ _ hlayout => run_of_layout? hmade hlayout
  · exact Layout.align_foldl_place ⟨0, 1⟩ layouts
  · intro others total hlayouts hothers
    exact Layout.size_le_of_placed haligned (hlayouts.trans hslots) hothers

def frameStruct : TypeDef where
  identity := "Frame"
  name := "Frame"
  fields := [⟨"flag", .scalar { name := "bool", size := 1 }⟩,
    ⟨"pairs", .array (.named "Pair" "Pair") 2⟩,
    ⟨"color", .scalar { name := "rgb", size := 3, align := 3 }⟩,
    ⟨"", .scalar { name := "byte", size := 1 }⟩]

/-- The struct is not in the index and is asked for twice, after a question that fails. -/
def frameHistory : List Query :=
  [.size (.named "Loop" "Loop"), .footprint frameStruct, .align (.named "Stray" "Stray")]

def frameMemo : Memo :=
  ((footprint {} brokenIndex frameStruct).run (memoAfter {} brokenIndex frameHistory [])).2

theorem layout_is_valid_and_least_frame :
    laidOut {} brokenIndex "Frame" frameHistory [] = some frameStruct ∧
    (footprint {} brokenIndex frameStruct).run (memoAfter {} brokenIndex frameHistory []) =
      (.ok 48, frameMemo) ∧
    ∃ align slots, align = (slots.map (·.layout.align)).foldl max 1 ∧
      slots.map (·.start) = [0, 8, 42, 45] ∧ Slot.Placed align 48 slots ∧
      ∀ others total, others.map (·.layout) = slots.map (·.layout) →
        Slot.Placed align total others → 48 ≤ total := by
  have hlaid : laidOut {} brokenIndex "Frame" frameHistory [] = some frameStruct := by
    decide +kernel
  have hsize :
      (footprint {} brokenIndex frameStruct).run (memoAfter {} brokenIndex frameHistory []) =
        (.ok 48, frameMemo) :=
    Prod.ext (by decide +kernel) rfl
  have hsizes : frameStruct.fields.map (fun field =>
      ((sizeof {} brokenIndex field.type).run frameMemo).1) = [.ok 1, .ok 32, .ok 3, .ok 1] := by
    decide +kernel
  have hstarts : ((fieldStarts {} brokenIndex remembered ⟨0, 1⟩ frameStruct.fields).run
      frameMemo).1 = .ok [0, 8, 42, 45] := by
    decide +kernel
  have hnonneg : ∀ field ∈ frameStruct.fields, ∀ n,
      ((sizeof {} brokenIndex field.type).run frameMemo).1 = .ok n → 0 ≤ n := by
    intro field hfield n hn
    have hmem := List.mem_map_of_mem (f := fun field : Field =>
      ((sizeof {} brokenIndex field.type).run frameMemo).1) hfield
    rw [hsizes, hn] at hmem
    simp only [List.mem_cons, Except.ok.injEq, List.not_mem_nil, or_false] at hmem
    rcases hmem with rfl | rfl | rfl | rfl <;> decide
  obtain ⟨align, slots, -, -, hslots, halign, -, -, hplaced, hleast⟩ :=
    layout_is_valid_and_least {} brokenIndex frameHistory frameStruct
      (fun u hu => by cases hlaid.symm.trans hu; rfl) 48 frameMemo hsize hnonneg
  rw [hslots] at hstarts
  exact ⟨hlaid, hsize, align, slots, halign, Except.ok.inj hstarts, hplaced, hleast⟩

def boxStruct (scalar : Scalar) : TypeDef where
  identity := "Box"
  name := "Box"
  fields := [⟨"content", .scalar scalar⟩]

/-- Once a box of eight bytes was laid out, a box of one byte is given eight bytes and their
alignment, though its field has size and alignment one and there is room for it in one byte. -/
theorem later_box_is_not_least :
    ((layoutOf {} {} (boxStruct { name := "int8", size := 1 })).run
      (memoAfter {} {} [.footprint (boxStruct { name := "int64", size := 8 })] [])).1 =
        .ok ⟨8, 8⟩ ∧
    ∀ memo, (sizeof {} {} (.scalar { name := "int8", size := 1 })).run memo = (.ok 1, memo) ∧
      (alignof {} {} (.scalar { name := "int8", size := 1 })).run memo = (.ok 1, memo) ∧
      Slot.Placed 1 1 [⟨0, ⟨1, 1⟩⟩] := by
  have hlayout : ((layoutOf {} {} (boxStruct { name := "int8", size := 1 })).run
      (memoAfter {} {} [.footprint (boxStruct { name := "int64", size := 8 })] [])).1 =
        .ok ⟨8, 8⟩ := by
    decide +kernel
  have hplaced : Slot.Placed 1 1 [⟨0, ⟨1, 1⟩⟩] :=
    ⟨by decide, by decide, List.isChain_singleton _, by decide, by decide⟩
  exact ⟨hlayout, fun memo => ⟨rfl, rfl, hplaced⟩⟩

end Sizing

end CopyLint
