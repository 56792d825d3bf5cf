import CopyLint.Layout.Sizing
import CopyLint.Proofs.LayoutRecursion

/-! The layout rules that look at a memo compute the recursive layout. The rules take the layouts of
embedded definitions from a computation, so they are followed for any computation that answers
the same from every memo of some kind and leaves a memo of that kind behind. -/
namespace CopyLint

namespace Sizing

variable {α β : Type} {inv : Memo → Prop}

theorem run_bind_ok {c : Sizing α} {f : α → Sizing β} {memo memo' : Memo} {a : α}
    (h : c.run memo = (.ok a, memo')) : (c >>= f).run memo = (f a).run memo' := by
  rw [ExceptT.run_bind]
  simp only [bind, StateT.bind]
  rw [h]

theorem run_bind_error {c : Sizing α} {f : α → Sizing β} {memo memo' : Memo}
    {cause : LayoutError} (h : c.run memo = (.error cause, memo')) :
    (c >>= f).run memo = (.error cause, memo') := by
  rw [ExceptT.run_bind]
  simp only [bind, StateT.bind]
  rw [h]
  rfl

/-- The answer from every memo with the property, which the memo left behind has too. -/
def Yields (inv : Memo → Prop) (c : Sizing α) (answer : Except LayoutError α) : Prop :=
  ∀ memo, inv memo → (c.run memo).1 = answer ∧ inv (c.run memo).2

theorem yields_pure (a : α) : Yields inv (pure a) (.ok a) :=
  fun _ hmemo => ⟨rfl, hmemo⟩

theorem yields_lift (answer : Except LayoutError α) : Yields inv (liftM answer) answer :=
  fun _ hmemo => ⟨rfl, hmemo⟩

theorem yields_throw (cause : LayoutError) : Yields inv (throw cause : Sizing α) (.error cause) :=
  fun _ hmemo => ⟨rfl, hmemo⟩

theorem Yields.bind {c : Sizing α} {f : α → Sizing β} {a : α} {answer : Except LayoutError β}
    (hc : Yields inv c (.ok a)) (hf : Yields inv (f a) answer) : Yields inv (c >>= f) answer := by
  intro memo hmemo
  obtain ⟨hanswer, hkept⟩ := hc memo hmemo
  rw [run_bind_ok (Prod.ext hanswer rfl)]
  exact hf _ hkept

theorem Yields.bind_error {c : Sizing α} {cause : LayoutError} (hc : Yields inv c (.error cause))
    (f : α → Sizing β) : Yields inv (c >>= f) (.error cause) := by
  intro memo hmemo
  obtain ⟨hanswer, hkept⟩ := hc memo hmemo
  rw [run_bind_error (Prod.ext hanswer rfl)]
  exact ⟨rfl, hkept⟩

theorem roundedUp_of_ne_zero (offset : Int) {align : Int} (h : align ≠ 0) :
    roundedUp offset align = pure (roundUp offset align) := by
  rw [roundedUp, alignUp_of_ne_zero offset h]

theorem yields_roundedUp_of_ne_zero (offset : Int) {align : Int} (h : align ≠ 0) :
    Yields inv (roundedUp offset align) (.ok (roundUp offset align)) := by
  rw [roundedUp_of_ne_zero offset h]
  exact yields_pure _

theorem yields_roundedUp (offset : Int) {align : Int} (h : 1 ≤ align) :
    Yields inv (roundedUp offset align) (.ok (roundUp offset align)) :=
  yields_roundedUp_of_ne_zero offset (by omega)

/-- The layout of a reference to nothing is the only one that the rules cannot compute. -/
def orUnsupported : Option α → Except LayoutError α
  | some a => .ok a
  | none => .error (.unsupportedRef {})

end Sizing

namespace Index

theorem require_of_find? {index : Index} {identity : String} {t : TypeDef}
    (h : index.find? identity = some t) (name : String) :
    index.require identity name = .ok t := by
  unfold require
  rw [h]
  rfl

theorem require_of_find?_eq_none {index : Index} {identity : String}
    (h : index.find? identity = none) (name : String) :
    index.require identity name = .error (.unknownType name identity) := by
  unfold require
  rw [h]
  rfl

end Index

def Index.Answers (config : Config) (index : Index) (inv : Memo → Prop)
    (layoutOf : TypeDef → Sizing Layout) (inner : String → Option Layout)
    (reference : String × String) : Prop :=
  ∃ t layout, index.find? reference.1 = some t ∧ inner reference.1 = some layout ∧
    layout.Aligned config ∧ Sizing.Yields inv (layoutOf t) (.ok layout)

namespace Sizing

variable {inv : Memo → Prop} {config : Config} {index : Index}
  {layoutOf : TypeDef → Sizing Layout} {inner : String → Option Layout}

theorem yields_alignWith {ref : TypeRef}
    (hinner : ∀ reference, ref.embedded = some reference →
      index.Answers config inv layoutOf inner reference) :
    Yields inv (alignWith config index layoutOf ref)
      (orUnsupported ((ref.layout? config inner).map (·.align))) := by
  induction ref with
  | scalar s => exact yields_pure _
  | named identity name =>
    obtain ⟨t, layout, hfind, hlayout, _, hyields⟩ := hinner (identity, name) rfl
    have hanswer : TypeRef.layout? config inner (.named identity name) = some layout := hlayout
    rw [hanswer, alignWith, Index.require_of_find? hfind]
    exact (yields_lift _).bind (hyields.bind (yields_pure _))
  | pointer target label => exact yields_pure _
  | rawPointer label => exact yields_pure _
  | array elem length ih =>
    rw [alignWith, TypeRef.layout?, Option.map_map]
    exact ih hinner
  | unsupported => exact yields_throw _

theorem yields_alignWith_of_layout? {ref : TypeRef}
    (hinner : ∀ reference, ref.embedded = some reference →
      index.Answers config inv layoutOf inner reference)
    {layout : Layout} (hlayout : ref.layout? config inner = some layout) :
    Yields inv (alignWith config index layoutOf ref) (.ok layout.align) := by
  have halign := yields_alignWith hinner
  rw [hlayout] at halign
  exact halign

theorem aligned_of_answers {ref : TypeRef}
    (hinner : ∀ reference, ref.embedded = some reference →
      index.Answers config inv layoutOf inner reference)
    {layout : Layout} (hlayout : ref.layout? config inner = some layout) :
    layout.Aligned config := by
  refine TypeRef.aligned_layout? ?_ hlayout
  intro reference hreference found hfound
  obtain ⟨_, layout, _, hlayout, haligned, _⟩ := hinner reference hreference
  cases hlayout.symm.trans hfound
  exact haligned

theorem yields_sizeWith {ref : TypeRef}
    (hinner : ∀ reference, ref.embedded = some reference →
      index.Answers config inv layoutOf inner reference)
    {layout : Layout} (hlayout : ref.layout? config inner = some layout) :
    Yields inv (sizeWith config index layoutOf ref) (.ok layout.size) := by
  induction ref generalizing layout with
  | scalar s =>
    cases hlayout
    exact yields_pure _
  | named identity name =>
    obtain ⟨t, found, hfind, hfound, _, hyields⟩ := hinner (identity, name) rfl
    cases hfound.symm.trans hlayout
    rw [sizeWith, Index.require_of_find? hfind]
    exact (yields_lift _).bind (hyields.bind (yields_pure _))
  | pointer target label =>
    cases hlayout
    exact yields_pure _
  | rawPointer label =>
    cases hlayout
    exact yields_pure _
  | array elem length ih =>
    obtain ⟨found, hfound, rfl⟩ := Option.map_eq_some_iff.mp hlayout
    rw [TypeRef.embedded_array] at hinner
    have hsize := ih hinner hfound
    have halign : Yields inv (alignWith config index layoutOf elem) (.ok found.align) :=
      yields_alignWith_of_layout? hinner hfound
    have haligned : found.Aligned config := aligned_of_answers hinner hfound
    rw [sizeWith]
    unfold Layout.ofElements
    split
    · exact yields_pure _
    · apply hsize.bind
      apply halign.bind
      apply (yields_roundedUp found.size haligned.1).bind
      exact yields_pure _
  | unsupported => cases hlayout

theorem yields_placeField {field : Field}
    (hinner : ∀ reference, field.type.embedded = some reference →
      index.Answers config inv layoutOf inner reference) (sofar : Layout) :
    Yields inv (placeField config index layoutOf sofar field)
      (orUnsupported ((field.type.layout? config inner).map sofar.place)) := by
  unfold placeField
  cases hlayout : field.type.layout? config inner with
  | none =>
    have halign := yields_alignWith hinner
    rw [hlayout] at halign
    exact halign.bind_error _
  | some layout =>
    apply (yields_alignWith_of_layout? hinner hlayout).bind
    apply (yields_roundedUp sofar.size (aligned_of_answers hinner hlayout).1).bind
    apply (yields_sizeWith hinner hlayout).bind
    exact yields_pure _

theorem yields_placeFields {fields : List Field}
    (hinner : ∀ reference ∈ references fields,
      index.Answers config inv layoutOf inner reference) (sofar : Layout) :
    Yields inv (fields.foldlM (placeField config index layoutOf) sofar)
      (orUnsupported ((fields.mapM fun (field : Field) => field.type.layout? config inner).map
        fun layouts => layouts.foldl Layout.place sofar)) := by
  induction fields generalizing sofar with
  | nil => exact yields_pure _
  | cons field rest ih =>
    simp only [references_cons, List.mem_append, Option.mem_toList, or_imp, forall_and] at hinner
    have hplace := yields_placeField hinner.1 sofar
    rw [List.foldlM_cons, List.mapM_cons]
    cases hlayout : field.type.layout? config inner with
    | none =>
      rw [hlayout] at hplace
      exact hplace.bind_error _
    | some layout =>
      rw [hlayout] at hplace
      have hrest := ih hinner.2 (sofar.place layout)
      apply Yields.bind hplace
      cases hlayouts : rest.mapM fun (field : Field) => field.type.layout? config inner with
      | none =>
        rw [hlayouts] at hrest
        exact hrest
      | some layouts =>
        rw [hlayouts] at hrest
        exact hrest

theorem yields_fieldLayout {t : TypeDef}
    (hinner : ∀ reference ∈ references t.fields,
      index.Answers config inv layoutOf inner reference) :
    Yields inv (fieldLayout config index layoutOf t)
      (orUnsupported ((t.fields.mapM fun (field : Field) => field.type.layout? config inner).map
        Layout.ofFields)) := by
  have hplace := yields_placeFields hinner ⟨0, 1⟩
  unfold fieldLayout
  cases hlayouts : t.fields.mapM fun (field : Field) => field.type.layout? config inner with
  | none =>
    rw [hlayouts] at hplace
    exact hplace.bind_error _
  | some layouts =>
    rw [hlayouts] at hplace
    have haligned : (layouts.foldl Layout.place ⟨0, 1⟩).Aligned config := by
      refine Layout.aligned_foldl_place (fun layout hmem => ?_) (Layout.aligned_empty config)
      obtain ⟨field, hfield, hlayout⟩ := mem_of_mapM_eq_some hlayouts layout hmem
      have hfieldInner : ∀ reference, field.type.embedded = some reference →
          index.Answers config inv layoutOf inner reference := fun reference hreference =>
        hinner reference (mem_references.mpr ⟨field, hfield, hreference⟩)
      exact aligned_of_answers hfieldInner hlayout
    apply Yields.bind hplace
    rw [Layout.cap_align haligned]
    apply (yields_roundedUp _ haligned.1).bind
    exact yields_pure _

end Sizing

end CopyLint
