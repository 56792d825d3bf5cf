import Mathlib.Tactic.Ring
import CopyLint.Proofs.LeastLayout
import CopyLint.Proofs.Lockstep

/-! Arrays as repetitions. Elements follow each other at the stride at which fields of their type
would, and the last one is not padded either. So an array among fields can be written out field by
field, and an array of arrays is one array of all their elements. -/
namespace CopyLint

/-! Multiples of the alignment pass through rounding. -/

theorem roundUp_add_of_dvd {multiple align : Int} (h : align ≠ 0) (hdvd : align ∣ multiple)
    (offset : Int) : roundUp (multiple + offset) align = multiple + roundUp offset align := by
  obtain ⟨k, rfl⟩ := hdvd
  have hshift : align * k + offset + align - 1 = offset + align - 1 + k * align := by ring
  unfold roundUp
  rw [hshift, Int.add_mul_fdiv_right _ _ h]
  ring

theorem roundUp_zero {align : Int} (h : 0 < align) : roundUp 0 align = 0 :=
  le_antisymm (roundUp_le h (Int.dvd_zero align) le_rfl) (le_roundUp 0 h)

def repeated (elem : TypeRef) (labels : List String) : List Field :=
  labels.map fun label => ⟨label, elem⟩

theorem repeated_cons (elem : TypeRef) (label : String) (labels : List String) :
    repeated elem (label :: labels) = ⟨label, elem⟩ :: repeated elem labels :=
  rfl

namespace Memo

variable (memo : Memo)

def pendingIn (memo : Memo) (ref : TypeRef) : Option (String × String) :=
  ref.embedded.toList.find? fun reference => (memo.find? reference.1).isNone

theorem firstPending_cons (field : Field) (rest : List Field) :
    memo.firstPending (field :: rest) =
      (memo.pendingIn field.type).or (memo.firstPending rest) := by
  rw [firstPending, references_cons, List.find?_append]
  rfl

theorem firstPending_repeated (elem : TypeRef) {labels : List String} (hlabels : labels ≠ [])
    (rest : List Field) :
    memo.firstPending (repeated elem labels ++ rest) =
      (memo.pendingIn elem).or (memo.firstPending rest) := by
  induction labels with
  | nil => exact absurd rfl hlabels
  | cons label more ih =>
    rw [repeated_cons, List.cons_append, firstPending_cons]
    by_cases hmore : more = []
    · rw [hmore]
      rfl
    · rw [ih hmore, ← Option.or_assoc, Option.or_self]

end Memo

namespace Sizing

variable {inv : Memo → Prop} {config : Config} {index : Index}
  {layoutOf : TypeDef → Sizing Layout}

theorem yields_roundedUp_zero (offset : Int) :
    Yields inv (roundedUp offset 0) (.error (.zeroAlignment {})) :=
  yields_throw _

def Agree {α : Type} (inv : Memo → Prop) (c d : Sizing α) : Prop :=
  ∃ answer, Yields inv c answer ∧ Yields inv d answer

theorem Transparent.agree {α : Type} {c : Sizing α} (h : Transparent inv c) : Agree inv c c := by
  obtain ⟨answer, hanswer⟩ := h
  exact ⟨answer, hanswer, hanswer⟩

theorem Agree.bind {α β : Type} {c d : Sizing α} {f g : α → Sizing β} (h : Agree inv c d)
    (hfg : ∀ a, Agree inv (f a) (g a)) : Agree inv (c >>= f) (d >>= g) := by
  obtain ⟨answer, hc, hd⟩ := h
  cases answer with
  | error cause => exact ⟨_, hc.bind_error f, hd.bind_error g⟩
  | ok a =>
    obtain ⟨answer, hf, hg⟩ := hfg a
    exact ⟨answer, hc.bind hf, hd.bind hg⟩

section

variable {elem : TypeRef} {size align : Int}
  (halign : Yields inv (alignWith config index layoutOf elem) (.ok align)) (hne : align ≠ 0)
  (hsize : Yields inv (sizeWith config index layoutOf elem) (.ok size))
include halign hne hsize

theorem yields_placeField_of_ne_zero (sofar : Layout) (label : String) :
    Yields inv (placeField config index layoutOf sofar ⟨label, elem⟩)
      (.ok ⟨roundUp sofar.size align + size, max sofar.align align⟩) := by
  apply halign.bind
  apply (yields_roundedUp_of_ne_zero sofar.size hne).bind
  apply hsize.bind
  exact yields_pure _

theorem yields_placeFields_repeated {start : Int} (hstart : align ∣ start) (least : Int)
    (labels : List String) :
    Yields inv ((repeated elem labels).foldlM (placeField config index layoutOf)
        ⟨start + size, max least align⟩)
      (.ok ⟨start + (roundUp size align * labels.length + size), max least align⟩) := by
  induction labels generalizing start with
  | nil => simpa [repeated] using yields_pure _
  | cons label rest ih =>
    have hnext : align ∣ start + roundUp size align := Int.dvd_add hstart (dvd_roundUp size align)
    have hplace := yields_placeField_of_ne_zero halign hne hsize
      ⟨start + size, max least align⟩ label
    rw [roundUp_add_of_dvd hne hstart, max_assoc, max_self] at hplace
    have hrest := ih hnext
    have hend : start + roundUp size align + (roundUp size align * rest.length + size) =
        start + (roundUp size align * (label :: rest).length + size) := by
      rw [List.length_cons]
      push_cast
      ring
    rw [hend] at hrest
    rw [repeated_cons, List.foldlM_cons]
    exact hplace.bind hrest

theorem yields_sizeWith_array {length : Int} (hlength : 0 < length) :
    Yields inv (sizeWith config index layoutOf (.array elem length))
      (.ok (roundUp size align * (length - 1) + size)) := by
  rw [sizeWith, if_neg (by omega)]
  apply hsize.bind
  apply halign.bind
  apply (yields_roundedUp_of_ne_zero size hne).bind
  exact yields_pure _

end

theorem agree_placeField_array {elem : TypeRef}
    (halign : Transparent inv (alignWith config index layoutOf elem))
    (hsize : Transparent inv (sizeWith config index layoutOf elem)) (sofar : Layout)
    (label : String) {labels : List String} (hlabels : labels ≠ []) :
    Agree inv (placeField config index layoutOf sofar ⟨label, .array elem labels.length⟩)
      ((repeated elem labels).foldlM (placeField config index layoutOf) sofar) := by
  obtain ⟨first, rest, rfl⟩ := List.exists_cons_of_ne_nil hlabels
  obtain ⟨align, halign⟩ := halign
  obtain ⟨size, hsize⟩ := hsize
  have hlength : (0 : Int) < (first :: rest).length := by
    rw [List.length_cons]
    omega
  rw [repeated_cons, List.foldlM_cons]
  -- Without an alignment to round up to, or without a size, the first of the fields fails as well.
  cases align with
  | error cause => exact ⟨_, halign.bind_error _, (halign.bind_error _).bind_error _⟩
  | ok align =>
    by_cases hne : align = 0
    · subst hne
      have hfailed : Yields inv (roundedUp sofar.size 0) _ := yields_roundedUp_zero sofar.size
      exact ⟨_, halign.bind (hfailed.bind_error _),
        (halign.bind (hfailed.bind_error _)).bind_error _⟩
    · have hstart : Yields inv (roundedUp sofar.size align) _ :=
        yields_roundedUp_of_ne_zero sofar.size hne
      cases size with
      | error cause =>
        have harray : Yields inv (sizeWith config index layoutOf
            (.array elem (first :: rest).length)) (.error cause) := by
          rw [sizeWith, if_neg (by omega)]
          exact hsize.bind_error _
        exact ⟨_, halign.bind (hstart.bind (harray.bind_error _)),
          (halign.bind (hstart.bind (hsize.bind_error _))).bind_error _⟩
      | ok size =>
        have harray := yields_sizeWith_array halign hne hsize hlength
        have halignArray : Yields inv (alignWith config index layoutOf
            (.array elem (first :: rest).length)) (.ok align) := halign
        have hplace := yields_placeField_of_ne_zero halignArray hne harray sofar label
        have hfirst := yields_placeField_of_ne_zero halign hne hsize sofar first
        have hrest := yields_placeFields_repeated halign hne hsize
          (dvd_roundUp sofar.size align) sofar.align rest
        have hcount : ((first :: rest).length : Int) - 1 = rest.length := by
          rw [List.length_cons]
          omega
        rw [hcount] at hplace
        exact ⟨_, hplace, hfirst.bind hrest⟩

variable (hlayoutOf : ∀ t, index.find? t.identity = some t → Transparent inv (layoutOf t))
include hlayoutOf

theorem transparent_placeField (sofar : Layout) (field : Field) :
    Transparent inv (placeField config index layoutOf sofar field) := by
  have hP := composable_transparent inv
  apply hP.bind (hP.alignWith hlayoutOf field.type)
  intro align
  apply hP.bind (hP.roundedUp sofar.size align)
  intro start
  apply hP.bind (hP.sizeWith hlayoutOf field.type)
  intro size
  exact hP.pure _

end Sizing

/-- The fields with some of the arrays written out as single fields. -/
inductive UnrolledFields : List Field → List Field → Prop where
  | nil : UnrolledFields [] []
  | keep (field : Field) {fields unrolled : List Field} :
      UnrolledFields fields unrolled → UnrolledFields (field :: fields) (field :: unrolled)
  | unroll (label : String) (elem : TypeRef) {labels : List String} {fields unrolled : List Field} :
      labels ≠ [] → UnrolledFields fields unrolled →
        UnrolledFields (⟨label, .array elem labels.length⟩ :: fields)
          (repeated elem labels ++ unrolled)

namespace UnrolledFields

theorem refl (fields : List Field) : UnrolledFields fields fields := by
  induction fields with
  | nil => exact .nil
  | cons field rest ih => exact .keep field ih

theorem between (before : List Field) (label : String) (elem : TypeRef) {labels : List String}
    (hlabels : labels ≠ []) (after : List Field) :
    UnrolledFields (before ++ ⟨label, .array elem labels.length⟩ :: after)
      (before ++ repeated elem labels ++ after) := by
  induction before with
  | nil => exact .unroll label elem hlabels (.refl after)
  | cons field rest ih => exact .keep field ih

variable {fields unrolled : List Field}

theorem firstPending_eq (h : UnrolledFields fields unrolled) (memo : Memo) :
    memo.firstPending unrolled = memo.firstPending fields := by
  induction h with
  | nil => rfl
  | keep field _ ih => rw [Memo.firstPending_cons, Memo.firstPending_cons, ih]
  | unroll label elem hlabels _ ih =>
    rw [Memo.firstPending_cons, Memo.firstPending_repeated memo elem hlabels, ih]
    rfl

theorem agree_placeFields {inv : Memo → Prop} {config : Config} {index : Index}
    {layoutOf : TypeDef → Sizing Layout}
    (hlayoutOf : ∀ t, index.find? t.identity = some t → Sizing.Transparent inv (layoutOf t))
    (h : UnrolledFields fields unrolled) (sofar : Layout) :
    Sizing.Agree inv (fields.foldlM (Sizing.placeField config index layoutOf) sofar)
      (unrolled.foldlM (Sizing.placeField config index layoutOf) sofar) := by
  induction h generalizing sofar with
  | nil => exact (Sizing.yields_pure sofar).transparent.agree
  | keep field _ ih =>
    rw [List.foldlM_cons, List.foldlM_cons]
    exact (Sizing.transparent_placeField hlayoutOf sofar field).agree.bind ih
  | unroll label elem hlabels _ ih =>
    have hP := Sizing.composable_transparent inv
    rw [List.foldlM_cons, List.foldlM_append]
    exact (Sizing.agree_placeField_array (hP.alignWith hlayoutOf elem) (hP.sizeWith hlayoutOf elem)
      sofar label hlabels).bind ih

end UnrolledFields

/-- The definition with some of the arrays among its fields written out. -/
structure TypeDef.Unrolls (t t' : TypeDef) : Prop where
  identity_eq : t'.identity = t.identity
  name_eq : t'.name = t.name
  fields : UnrolledFields t.fields t'.fields

theorem TypeDef.Unrolls.refl (t : TypeDef) : t.Unrolls t :=
  ⟨rfl, rfl, .refl t.fields⟩

def Index.Unrolls (index index' : Index) : Prop :=
  ∀ identity, Option.Rel TypeDef.Unrolls (index.find? identity) (index'.find? identity)

namespace Sizing

theorem transparent_remembered (memo : Memo) (t : TypeDef) :
    Transparent (· = memo) (remembered t) := by
  refine ⟨((remembered t).run memo).1, ?_⟩
  rintro memo rfl
  refine ⟨rfl, ?_⟩
  have hget : (get : Sizing Memo).run memo = (.ok memo, memo) := rfl
  rw [remembered, run_bind_ok hget]
  cases memo.find? t.identity <;> rfl

section

variable {index index' : Index} (hindex : index.Unrolls index') (config : Config)
include hindex

theorem alignWith_unrolls (ref : TypeRef) :
    alignWith config index' remembered ref = alignWith config index remembered ref := by
  induction ref with
  | named identity name =>
    apply require_rel (hindex identity)
    intro t t' h
    rw [remembered_congr h.identity_eq h.name_eq]
  | array elem length ih => exact ih
  | scalar | pointer | rawPointer | unsupported => rfl

theorem sizeWith_unrolls (ref : TypeRef) :
    sizeWith config index' remembered ref = sizeWith config index remembered ref := by
  induction ref with
  | named identity name =>
    apply require_rel (hindex identity)
    intro t t' h
    rw [remembered_congr h.identity_eq h.name_eq]
  | array elem length ih => simp only [sizeWith, ih, alignWith_unrolls hindex]
  | scalar | pointer | rawPointer | unsupported => rfl

theorem run_fieldLayout_unrolls {t t' : TypeDef} (h : t.Unrolls t') (memo : Memo) :
    (fieldLayout config index' remembered t').run memo =
      (fieldLayout config index remembered t).run memo := by
  have hplace : placeField config index' remembered = placeField config index remembered := by
    funext sofar field
    simp only [placeField, alignWith_unrolls hindex, sizeWith_unrolls hindex]
  have hagree : Agree (· = memo) (fieldLayout config index remembered t)
      (fieldLayout config index remembered t') := by
    apply (h.fields.agree_placeFields (fun u _ => transparent_remembered memo u) ⟨0, 1⟩).bind
    intro placed
    have hP := composable_transparent (· = memo)
    exact (hP.bind (hP.roundedUp _ _) fun size => hP.pure _).agree
  obtain ⟨answer, hleft, hright⟩ := hagree
  have hsame : fieldLayout config index' remembered t' =
      fieldLayout config index remembered t' := by
    simp only [fieldLayout, hplace]
  rw [hsame]
  obtain ⟨hanswer, hmemo⟩ := hleft memo rfl
  obtain ⟨hanswer', hmemo'⟩ := hright memo rfl
  exact Prod.ext (hanswer'.trans hanswer.symm) (hmemo'.trans hmemo.symm)

theorem run_layoutOf_unrolls {t t' : TypeDef} (h : t.Unrolls t') (memo : Memo) :
    (layoutOf config index' t').run memo = (layoutOf config index t).run memo := by
  have halike : ∀ {t t' : TypeDef}, t.Unrolls t' → t.Alike config index index' t' :=
    fun h => ⟨h.identity_eq, h.name_eq, h.fields.firstPending_eq, fun memo => by
      rw [run_fieldLayout_unrolls hindex config h]⟩
  refine run_layoutOf_alike (fun identity => ?_) (halike h) memo
  have hfound := hindex identity
  generalize index.find? identity = found, index'.find? identity = found' at hfound
  cases hfound with
  | none => exact .none
  | some hfound => exact .some (halike hfound)

end

/-! Arrays of arrays. -/

variable {config : Config} {index : Index} {memo later : Memo}

theorem layoutOf_of_alignof_named {identity name : String} {align : Int}
    (h : (alignof config index (.named identity name)).run memo = (.ok align, later)) :
    ∃ t layout, index.find? identity = some t ∧
      (layoutOf config index t).run memo = (.ok layout, later) ∧ layout.align = align := by
  unfold alignof alignWith at h
  cases hfind : index.find? identity with
  | none =>
    rw [Index.require_of_find?_eq_none hfind] at h
    cases h
  | some t =>
    have hlift : (liftM (index.require identity name) : Sizing TypeDef).run memo =
        (.ok t, memo) := by
      rw [Index.require_of_find? hfind]
      rfl
    rw [run_bind_ok hlift] at h
    cases hrun : (layoutOf config index t).run memo with
    | mk answer found =>
      cases answer with
      | error cause =>
        rw [run_bind_error hrun] at h
        cases h
      | ok layout =>
        rw [run_bind_ok hrun] at h
        cases h
        exact ⟨t, layout, rfl, hrun, rfl⟩

theorem alignof_again {ref : TypeRef} {align : Int}
    (h : (alignof config index ref).run memo = (.ok align, later)) :
    (alignof config index ref).run later = (.ok align, later) := by
  induction ref with
  | named identity name =>
    obtain ⟨t, layout, hfind, hrun, rfl⟩ := layoutOf_of_alignof_named h
    have hlift : (liftM (index.require identity name) : Sizing TypeDef).run later =
        (.ok t, later) := by
      rw [Index.require_of_find? hfind]
      rfl
    have hrecalls := recalls_layoutOf config index later t layout (find?_of_layoutOf hrun)
    rw [alignof, alignWith, run_bind_ok hlift, run_bind_ok hrecalls]
    rfl
  | array elem length ih => exact ih h
  | scalar | pointer | rawPointer =>
    cases h
    rfl
  | unsupported => cases h

theorem one_le_alignof {maker : String → Option TypeDef} (hmade : memo.Made config index maker)
    {ref : TypeRef} {align : Int}
    (h : (alignof config index ref).run memo = (.ok align, later)) : 1 ≤ align := by
  induction ref with
  | named identity name =>
    have hlater := (Query.made_answer hmade (.align (.named identity name))).1
    rw [Query.answer, h] at hlater
    obtain ⟨t, layout, _, hrun, rfl⟩ := layoutOf_of_alignof_named h
    exact (hlater.aligned (find?_of_layoutOf hrun)).1
  | array elem length ih => exact ih h
  | scalar | pointer | rawPointer =>
    cases h
    exact (Layout.aligned_cap config 0 _).1
  | unsupported => cases h

theorem run_sizeof_nested {m n : Int} (hm : 0 < m) (hn : 0 < n) (elem : TypeRef) (memo : Memo) :
    (sizeof config index (.array (.array elem m) n)).run memo =
      (sizeof config index (.array elem (m * n))).run memo := by
  have hmn : 0 < m * n := Int.mul_pos hm hn
  simp only [sizeof, sizeWith, alignWith, if_neg (not_le.mpr hm), if_neg (not_le.mpr hn),
    if_neg (not_le.mpr hmn), bind_assoc, pure_bind]
  cases hsize : (sizeWith config index (layoutOf config index) elem).run memo with
  | mk answer sized =>
    cases answer with
    | error cause => rw [run_bind_error hsize, run_bind_error hsize]
    | ok size =>
      rw [run_bind_ok hsize, run_bind_ok hsize]
      cases halign : (alignWith config index (layoutOf config index) elem).run sized with
      | mk answer later =>
        cases answer with
        | error cause => rw [run_bind_error halign, run_bind_error halign]
        | ok align =>
          rw [run_bind_ok halign, run_bind_ok halign]
          by_cases hne : align = 0
          · subst hne
            rfl
          · have hagain : (alignWith config index (layoutOf config index) elem).run later =
                (.ok align, later) := alignof_again halign
            have hrows : align ∣ roundUp size align * (m - 1) :=
              Int.dvd_mul_of_dvd_left (dvd_roundUp size align)
            have htotal : (roundUp size align * (m - 1) + roundUp size align) * (n - 1) +
                (roundUp size align * (m - 1) + size) =
                  roundUp size align * (m * n - 1) + size := by
              ring
            rw [roundedUp_of_ne_zero size hne, pure_bind, pure_bind, run_bind_ok hagain,
              roundedUp_of_ne_zero _ hne, pure_bind, roundUp_add_of_dvd hne hrows, htotal]

theorem sizeof_empty_rows {maker : String → Option TypeDef} (hmade : memo.Made config index maker)
    {n : Int} (hn : 0 < n) {elem : TypeRef} {align : Int}
    (h : ((alignof config index elem).run memo).1 = .ok align) :
    ((sizeof config index (.array (.array elem 0) n)).run memo).1 = .ok 0 := by
  have hrun : (alignWith config index (layoutOf config index) elem).run memo =
      (.ok align, ((alignof config index elem).run memo).2) := Prod.ext h rfl
  have hone := one_le_alignof hmade hrun
  simp only [sizeof, sizeWith, alignWith, le_refl, if_true, if_neg (not_le.mpr hn), pure_bind]
  rw [run_bind_ok hrun, roundedUp_of_ne_zero 0 (by omega), roundUp_zero hone, pure_bind, zero_mul,
    add_zero]
  rfl

/-- In any struct, an array of one or more elements can be written out as that many fields, and the
struct keeps its size and alignment, whatever is remembered and whether the index holds the struct
or not. After any questions, an array of arrays has the size and alignment of one array of all the
elements. An array of empty arrays is an exception if the elements have no alignment. -/
theorem arrays_are_repetitions (config : Config) :
    (∀ (index index' : Index) (memo : Memo) (t : TypeDef) (before : List Field) (label : String)
        (elem : TypeRef) (labels : List String) (after : List Field), labels ≠ [] →
      t.fields = before ++ ⟨label, .array elem labels.length⟩ :: after →
      let t' : TypeDef := { t with fields := before ++ repeated elem labels ++ after }
      (∀ identity, index'.find? identity = index.find? identity ∨
        index.find? identity = some t ∧ index'.find? identity = some t') →
      (layoutOf config index' t').run memo = (layoutOf config index t).run memo) ∧
    ∀ (index : Index) (history : List Query) (elem : TypeRef) (m n : Int), 0 ≤ m → 0 ≤ n →
      let memo := memoAfter config index history []
      (alignof config index (.array (.array elem m) n)).run memo =
        (alignof config index (.array elem (m * n))).run memo ∧
      ((m = 0 → 0 < n → ∃ align, ((alignof config index elem).run memo).1 = .ok align) →
        ((sizeof config index (.array (.array elem m) n)).run memo).1 =
          ((sizeof config index (.array elem (m * n))).run memo).1) := by
  constructor
  · intro index index' memo t before label elem labels after hlabels hfields t' hfind
    have hunrolls : t.Unrolls t' :=
      ⟨rfl, rfl, by rw [hfields]; exact .between before label elem hlabels after⟩
    refine run_layoutOf_unrolls (fun identity => ?_) config hunrolls memo
    rcases hfind identity with hsame | ⟨hold, hnew⟩
    · rw [hsame]
      cases index.find? identity with
      | none => exact .none
      | some u => exact .some (.refl u)
    · rw [hold, hnew]
      exact .some hunrolls
  · intro index history elem m n hm hn
    refine ⟨rfl, fun haligned => ?_⟩
    rcases hn.eq_or_lt with rfl | hn
    · rw [mul_zero]
      rfl
    · rcases hm.eq_or_lt with rfl | hm
      · obtain ⟨align, halign⟩ := haligned rfl hn
        have hmade := made_memoAfter (Memo.made_nil config index fun _ => none) history
        rw [sizeof_empty_rows hmade hn halign, zero_mul]
        rfl
      · rw [run_sizeof_nested hm hn]

def oddScalar : TypeRef :=
  .scalar { name := "odd", size := 5, align := 3 }

def oddStruct (fields : List Field) : TypeDef where
  identity := "Odd"
  name := "Odd"
  fields := [⟨"head", .scalar { name := "byte", size := 1 }⟩] ++ fields ++
    [⟨"tail", .scalar { name := "byte", size := 1 }⟩]

theorem arrays_are_repetitions_odd :
    ((layoutOf {} ⟨[oddStruct (repeated oddScalar ["a", "b", "c"])]⟩
      (oddStruct (repeated oddScalar ["a", "b", "c"]))).run []).1 = .ok ⟨21, 3⟩ ∧
    ((sizeof {} {} (.array (.array oddScalar 2) 3)).run []).1 = .ok 35 ∧
    ((sizeof {} {} (.array (.array oddScalar 0) 3)).run []).1 = .ok 0 := by
  have hunrolled := (arrays_are_repetitions {}).1 ⟨[oddStruct [⟨"items", .array oddScalar 3⟩]]⟩
    ⟨[oddStruct (repeated oddScalar ["a", "b", "c"])]⟩ []
    (oddStruct [⟨"items", .array oddScalar 3⟩]) _ "items" oddScalar ["a", "b", "c"] _ (by simp) rfl
    (fun identity => by
      by_cases h : "Odd" = identity
      · subst h
        exact .inr ⟨rfl, rfl⟩
      · simp [Index.find?, oddStruct, h])
  have hrows := ((arrays_are_repetitions {}).2 {} [] oddScalar 2 3 (by decide) (by decide)).2 nofun
  have hempty := ((arrays_are_repetitions {}).2 {} [] oddScalar 0 3 (by decide) (by decide)).2
    fun _ _ => ⟨3, by decide +kernel⟩
  refine ⟨?_, hrows.trans (by decide +kernel), hempty.trans (by decide +kernel)⟩
  exact (congrArg Prod.fst hunrolled).trans (by decide +kernel)

/-- An empty array of an unknown struct has a size, and so has an empty array of such arrays; but an
array that holds one of the latter has none, because the alignment is asked for. -/
theorem empty_row_of_unknown_has_no_size :
    ((sizeof {} {} (.array (.named "Gone" "Gone") 0)).run []).1 = .ok 0 ∧
    ((sizeof {} {} (.array (.array (.array (.named "Gone" "Gone") 0) 0) 1)).run []).1 =
      .error (.unknownType "Gone" "Gone") ∧
    ((sizeof {} {} (.array (.array (.named "Gone" "Gone") 0) (0 * 1))).run []).1 = .ok 0 := by
  decide +kernel

end Sizing

end CopyLint
