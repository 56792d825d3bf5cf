import CopyLint.Proofs.LayoutRun

/-! Sequences of questions to one memo. A failed question leaves behind what was laid out before the
failure, and later ones skip it; no answer shows the difference. -/
namespace CopyLint

namespace Sizing

/-- A property that computations pass on to what is put together from them. -/
structure Composable (P : {α : Type} → Sizing α → Prop) : Prop where
  lift {α : Type} (answer : Except LayoutError α) : P (liftM answer : Sizing α)
  bind {α β : Type} {c : Sizing α} {f : α → Sizing β} : P c → (∀ a, P (f a)) → P (c >>= f)

namespace Composable

variable {P : {α : Type} → Sizing α → Prop} (hP : Composable P) {config : Config} {index : Index}
  {layoutOf : TypeDef → Sizing Layout}
include hP

theorem pure {α : Type} (a : α) : P (Pure.pure a : Sizing α) :=
  hP.lift (.ok a)

theorem throw {α : Type} (cause : LayoutError) : P (MonadExcept.throw cause : Sizing α) :=
  hP.lift (.error cause)

theorem roundedUp (offset align : Int) : P (roundedUp offset align) := by
  unfold Sizing.roundedUp
  cases alignUp offset align with
  | ok n => exact hP.pure n
  | error cause => exact hP.throw _

theorem require {β : Type} (identity name : String) {f : TypeDef → Sizing β}
    (hf : ∀ t, index.find? t.identity = some t → P (f t)) :
    P (liftM (index.require identity name) >>= f) := by
  cases hfind : index.find? identity with
  | none =>
    rw [Index.require_of_find?_eq_none hfind]
    exact hP.throw _
  | some t =>
    have hidentity := Index.identity_of_find? hfind
    subst hidentity
    rw [Index.require_of_find? hfind]
    exact hf t hfind

variable (hlayoutOf : ∀ t, index.find? t.identity = some t → P (layoutOf t))
include hlayoutOf

theorem alignWith (ref : TypeRef) : P (alignWith config index layoutOf ref) := by
  induction ref with
  | scalar | pointer | rawPointer => exact hP.pure _
  | named identity name =>
    apply hP.require
    intro t hfind
    apply hP.bind (hlayoutOf t hfind)
    intro layout
    exact hP.pure _
  | array elem length ih => exact ih
  | unsupported => exact hP.throw _

theorem sizeWith (ref : TypeRef) : P (sizeWith config index layoutOf ref) := by
  induction ref with
  | scalar | pointer | rawPointer => exact hP.pure _
  | named identity name =>
    apply hP.require
    intro t hfind
    apply hP.bind (hlayoutOf t hfind)
    intro layout
    exact hP.pure _
  | array elem length ih =>
    rw [Sizing.sizeWith]
    split
    · exact hP.pure _
    · apply hP.bind ih
      intro size
      apply hP.bind (hP.alignWith hlayoutOf elem)
      intro align
      apply hP.bind (hP.roundedUp size align)
      intro stride
      exact hP.pure _
  | unsupported => exact hP.throw _

end Composable

variable {α : Type} {inv : Memo → Prop} {config : Config} {index : Index}

/-- The answer is the same from every memo with the property. -/
def Transparent (inv : Memo → Prop) (c : Sizing α) : Prop :=
  ∃ answer, Yields inv c answer

theorem Yields.transparent {c : Sizing α} {answer : Except LayoutError α}
    (h : Yields inv c answer) : Transparent inv c :=
  ⟨answer, h⟩

theorem composable_transparent (inv : Memo → Prop) : Composable (Transparent inv) where
  lift answer := (yields_lift answer).transparent
  bind := by
    rintro _ _ c f ⟨answer, hc⟩ hf
    cases answer with
    | error cause => exact (hc.bind_error f).transparent
    | ok a =>
      obtain ⟨answer, hf⟩ := hf a
      exact (hc.bind hf).transparent

inductive Query where
  | size (ref : TypeRef)
  | align (ref : TypeRef)
  | footprint (t : TypeDef)
  deriving DecidableEq, Repr

namespace Query

def answer (config : Config) (index : Index) : Query → Sizing Int
  | size ref => sizeof config index ref
  | align ref => alignof config index ref
  | footprint t => Sizing.footprint config index t

def Stored (index : Index) : Query → Prop
  | footprint t => index.find? t.identity = some t
  | _ => True

instance decidableStored (index : Index) : (query : Query) → Decidable (query.Stored index)
  | size _ => .isTrue trivial
  | align _ => .isTrue trivial
  | footprint t => inferInstanceAs (Decidable (index.find? t.identity = some t))

theorem transparent_answer {query : Query} (hstored : query.Stored index) :
    Transparent (Memo.Correct config index) (query.answer config index) := by
  cases query with
  | size ref =>
    exact (composable_transparent _).sizeWith (fun t h => (yields_layoutOf h).transparent) ref
  | align ref =>
    exact (composable_transparent _).alignWith (fun t h => (yields_layoutOf h).transparent) ref
  | footprint t => exact (yields_footprint hstored).transparent

end Query

/-- The answers to questions that are put one after the other, each to the memo that the ones
before have left behind. -/
def answers (config : Config) (index : Index) : List Query → Memo → List (Except LayoutError Int)
  | [], _ => []
  | query :: rest, memo =>
    let (answer, later) := (query.answer config index).run memo
    answer :: answers config index rest later

theorem answers_cons (config : Config) (index : Index) (query : Query) (rest : List Query)
    (memo : Memo) :
    answers config index (query :: rest) memo =
      ((query.answer config index).run memo).1 ::
        answers config index rest ((query.answer config index).run memo).2 :=
  rfl

theorem answers_of_correct {queries : List Query} (hstored : ∀ query ∈ queries, query.Stored index)
    {memo : Memo} (hmemo : memo.Correct config index) :
    answers config index queries memo =
      queries.map fun query => ((query.answer config index).run []).1 := by
  induction queries generalizing memo with
  | nil => rfl
  | cons query rest ih =>
    rw [List.forall_mem_cons] at hstored
    obtain ⟨answer, hanswer⟩ := Query.transparent_answer hstored.1
    have hfresh := (hanswer [] (Memo.correct_nil config index)).1
    obtain ⟨hnow, hlater⟩ := hanswer memo hmemo
    rw [answers_cons, List.map_cons, hnow, hfresh, ih hstored.2 hlater]

/-- Whatever was asked before, and whether it failed or not, each question is answered as it is on
a memo that holds nothing. -/
theorem answers_eq_fresh (config : Config) (index : Index) (queries : List Query)
    (hstored : ∀ query ∈ queries, query.Stored index) :
    answers config index queries [] =
      queries.map fun query => ((query.answer config index).run []).1 :=
  answers_of_correct hstored (Memo.correct_nil config index)

def brokenIndex : Index where
  definitions := [
    { identity := "Pair", name := "Pair", fields := [
      ⟨"a", .scalar { name := "int64", size := 8 }⟩,
      ⟨"b", .scalar { name := "byte", size := 1 }⟩] },
    { identity := "Loop", name := "Loop", fields := [
      ⟨"first", .named "Pair" "Pair"⟩, ⟨"again", .array (.named "Loop" "Loop") 0⟩] },
    { identity := "Stray", name := "Stray", fields := [
      ⟨"first", .named "Pair" "Pair"⟩, ⟨"lost", .named "Gone" "Gone"⟩] }]

/-- The first question fails after it has laid out what the later ones need. -/
def brokenQueries : List Query :=
  (brokenIndex.find? "Loop").toList.map .footprint ++
    [.size (.array (.named "Pair" "Pair") 2), .align .unsupported,
      .size (.named "Stray" "Stray")] ++
    brokenIndex.definitions.map .footprint

theorem answers_eq_fresh_broken :
    (∀ query ∈ brokenQueries, query.Stored brokenIndex) ∧
      (brokenQueries.map fun query => ((query.answer {} brokenIndex).run []).1) =
        answers {} brokenIndex brokenQueries [] ∧
      answers {} brokenIndex brokenQueries [] = [
        .error (.containsItself "Loop"), .ok 32, .error (.unsupportedRef {}),
        .error (.unknownType "Gone" "Gone"), .ok 16, .error (.containsItself "Loop"),
        .error (.unknownType "Gone" "Gone")] := by
  have hstored : ∀ query ∈ brokenQueries, query.Stored brokenIndex := by decide
  refine ⟨hstored, (answers_eq_fresh {} brokenIndex brokenQueries hstored).symm, ?_⟩
  decide +kernel

end Sizing

end CopyLint
