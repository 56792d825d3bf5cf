import CopyLint.Proofs.ConfigOrder
import CopyLint.Proofs.Repetition
import CopyLint.Proofs.SuccessfulRun

/-! Structs with a single field. Where the alignment of a type divides its size, elements of the type
need no padding between them and a struct around one value needs none behind it, so that any number of
structs around each other take as much as the value inside. -/
namespace CopyLint

theorem TypeDef.references_of_singleton {w : TypeDef} {label : String} {ref : TypeRef}
    (h : w.fields = [⟨label, ref⟩]) : references w.fields = ref.embedded.toList := by
  rw [h, references_cons]
  exact List.append_nil _

theorem roundUp_of_dvd {size align : Int} (h : 0 < align) (hdvd : align ∣ size) :
    roundUp size align = size :=
  Int.le_antisymm (roundUp_le h hdvd (Int.le_refl size)) (le_roundUp size h)

/-! Sizes that are multiples of the alignment. -/

theorem Config.Binary.cap_dvd {config : Config} (h : config.Binary) {align : Int}
    (halign : IsPowerOfTwo align) : config.cap align ∣ align := by
  apply (h.cap (.inr halign)).dvd_of_le halign
  have hpos := halign.pos
  unfold Config.cap
  omega

theorem Scalar.cap_dvd_bytes {config : Config} (h : config.Binary) {s : Scalar}
    (hs : s ∈ basicScalars) :
    config.cap (s.naturalAlign config.wordSize) ∣ s.bytes config.wordSize := by
  have hall : ∀ s ∈ basicScalars, (s.align = 0 ∧ s.words ≠ 0 ∧ s.size = 0) ∨
      (s.words = 0 ∧ IsPowerOfTwo (s.naturalAlign 1) ∧ s.naturalAlign 1 ∣ s.size) := by decide
  unfold Scalar.bytes
  rcases hall s hs with ⟨halign, hwords, hsize⟩ | ⟨hwords, hpower, hdvd⟩
  · have hnatural : s.naturalAlign config.wordSize = config.wordSize := by
      simp [Scalar.naturalAlign, halign, hwords]
    rw [hnatural, hsize, Int.zero_add]
    exact Int.dvd_mul_of_dvd_right (h.cap_dvd h.wordSize)
  · have hnatural : s.naturalAlign config.wordSize = s.naturalAlign 1 := by
      simp [Scalar.naturalAlign, hwords]
    rw [hnatural, hwords, Int.zero_mul, Int.add_zero]
    exact (h.cap_dvd hpower).trans hdvd

namespace Layout

theorem dvd_ofFields (fields : List Layout) : (ofFields fields).align ∣ (ofFields fields).size :=
  dvd_roundUp _ _

theorem size_ofElements {elem : Layout} (hpos : 0 < elem.align) (hdvd : elem.align ∣ elem.size)
    {length : Int} (hlength : 0 ≤ length) :
    (elem.ofElements length).size = length * elem.size := by
  unfold ofElements
  dsimp only
  rw [roundUp_of_dvd hpos hdvd]
  split
  · obtain rfl : length = 0 := by omega
    rw [Int.zero_mul]
  · ring

theorem dvd_ofElements {elem : Layout} (hpos : 0 < elem.align) (hdvd : elem.align ∣ elem.size)
    (length : Int) : (elem.ofElements length).align ∣ (elem.ofElements length).size := by
  rcases Int.le_total length 0 with hlength | hlength
  · unfold ofElements
    rw [if_pos hlength]
    exact Int.dvd_zero _
  · rw [size_ofElements hpos hdvd hlength]
    exact Int.dvd_mul_of_dvd_right hdvd

theorem ofFields_singleton {field : Layout} (hpos : 1 ≤ field.align)
    (hdvd : field.align ∣ field.size) : ofFields [field] = field := by
  have hstart : roundUp 0 field.align = 0 := roundUp_zero hpos
  simp only [ofFields, place, List.foldl_cons, List.foldl_nil, hstart, Int.zero_add,
    Int.max_eq_right hpos, roundUp_of_dvd hpos hdvd]

end Layout

namespace TypeRef

/-- Arrays, of any depth, of basic types, pointers and structs. -/
def Standard : TypeRef → Prop
  | .scalar s => s ∈ basicScalars
  | .named _ _ | .pointer _ _ | .rawPointer _ => True
  | .array elem _ => elem.Standard
  | .unsupported => False

theorem Standard.dvd_layout? {config : Config} (hbinary : config.Binary)
    {inner : String → Option Layout}
    (hinner : ∀ identity layout, inner identity = some layout →
      1 ≤ layout.align ∧ layout.align ∣ layout.size) {ref : TypeRef} (h : ref.Standard)
    {layout : Layout} (hlayout : ref.layout? config inner = some layout) :
    1 ≤ layout.align ∧ layout.align ∣ layout.size := by
  induction ref generalizing layout with
  | scalar s =>
    cases hlayout
    exact ⟨config.one_le_cap _, Scalar.cap_dvd_bytes hbinary h⟩
  | named identity name => exact hinner identity layout hlayout
  | pointer | rawPointer =>
    cases hlayout
    exact ⟨config.one_le_cap _, hbinary.cap_dvd hbinary.wordSize⟩
  | array elem length ih =>
    obtain ⟨found, hfound, rfl⟩ := Option.map_eq_some_iff.mp hlayout
    obtain ⟨hpos, hdvd⟩ := ih h hfound
    exact ⟨hpos, Layout.dvd_ofElements hpos hdvd length⟩
  | unsupported => cases hlayout

end TypeRef

theorem Memo.Made.dvd_layoutIn {config : Config} {index : Index} {memo : Memo}
    {maker : String → Option TypeDef} (hmade : memo.Made config index maker) (identity : String)
    (layout : Layout) (h : memo.layoutIn index identity = some layout) :
    1 ≤ layout.align ∧ layout.align ∣ layout.size := by
  unfold Memo.layoutIn at h
  split at h
  · obtain ⟨haligned, _, fields, _, _, rfl⟩ := hmade identity layout h
    exact ⟨haligned.1, Layout.dvd_ofFields fields⟩
  · cases h

/-! What a run does before it lays out a definition with a single reference. -/

namespace Progress

variable {config : Config} {index : Index} {memo later : Memo}
  {maker : String → Option TypeDef} {ref : TypeRef} {layout : Layout}

def waiting (memo : Memo) (stack : List TypeDef) : Progress :=
  ⟨stack, stack.map (·.identity), memo⟩

/-- A run that finds the reference missing from the memo has the later memo when it comes back to the
definition that holds the reference; there the reference has the layout. -/
structure Prepares (config : Config) (index : Index) (memo later : Memo) (ref : TypeRef)
    (layout : Layout) : Prop where
  grown : memo.Extends later
  answers : ∀ reference, ref.embedded = some reference →
    index.Answers config (· = later) Sizing.remembered (later.layoutIn index) reference
  layout_eq : ref.layout? config (later.layoutIn index) = some layout
  run_eq : ∀ (w : TypeDef) (below : List TypeDef), references w.fields = ref.embedded.toList →
    ((w :: below).map (·.identity)).Nodup → (∀ t ∈ w :: below, t.identity ∉ later.identities) →
      (waiting memo (w :: below)).run config index = (waiting later (w :: below)).run config index

theorem run_push {w t : TypeDef} {below : List TypeDef} {name : String}
    (hpending : memo.firstPending w.fields = some (t.identity, name))
    (hfind : index.find? t.identity = some t)
    (hnew : t.identity ∉ (w :: below).map (·.identity)) :
    (waiting memo (w :: below)).run config index =
      (waiting memo (t :: w :: below)).run config index := by
  apply run_next
  have hstack : (waiting memo (w :: below)).stack = w :: below := rfl
  have hmemo : (waiting memo (w :: below)).memo = memo := rfl
  have hactive : t.identity ∉ (waiting memo (w :: below)).active := hnew
  rw [step_eq config index hstack, hmemo, hpending]
  simp only [hfind, hactive, if_false]
  rfl

theorem firstPending_of_references {w : TypeDef} {reference : String × String}
    (h : references w.fields = [reference]) (hnew : reference.1 ∉ memo.identities) :
    memo.firstPending w.fields = some reference := by
  simp [Memo.firstPending, h, Memo.find?_eq_none_of_not_mem hnew]

namespace Prepares

theorem of_layout? (hmade : memo.Made config index maker)
    (h : ref.layout? config (memo.layoutIn index) = some layout) :
    Prepares config index memo memo ref layout where
  grown := .refl memo
  answers := Sizing.answers_of_layout? hmade (Sizing.recalls_remembered memo)
    (Option.isSome_of_eq_some h)
  layout_eq := h
  run_eq _ _ _ _ _ := rfl

theorem of_layoutOf (hmade : memo.Made config index maker) {t : TypeDef} (name : String)
    (hfind : index.find? t.identity = some t)
    (hrun : (Sizing.layoutOf config index t).run memo = (.ok layout, later)) :
    Prepares config index memo later (.named t.identity name) layout := by
  have hlayout : later.layoutIn index t.identity = some layout := by
    rw [Memo.layoutIn, hfind]
    exact Sizing.find?_of_layoutOf hrun
  by_cases hknown : t.identity ∈ memo.identities
  · have hfound := (memo.isSome_find? _).mpr hknown
    have hsame := Sizing.memo_layoutOf config index memo t
    rw [hrun, if_pos hfound] at hsame
    subst hsame
    exact .of_layout? hmade hlayout
  · obtain ⟨maker', hkept, hindexed⟩ := exists_kept_start (t := t) hmade hknown
    have hstart := Sizing.run_of_layoutOf hknown hrun
    have hlater := hkept.run hindexed
    rw [hstart] at hlater
    refine ⟨hlater.2, Sizing.answers_of_layout? hlater.1 (Sizing.recalls_remembered later)
      (Option.isSome_of_eq_some hlayout), hlayout, ?_⟩
    intro w below hrefs _ habsent
    have hmem : t.identity ∈ later.identities :=
      (later.isSome_find? _).mp (Option.isSome_of_eq_some (Sizing.find?_of_layoutOf hrun))
    have hnew : t.identity ∉ (w :: below).map (·.identity) := not_mem_map_identity hmem habsent
    rw [run_push (firstPending_of_references hrefs hknown) hfind hnew]
    exact hkept.run_atop hindexed hstart habsent

theorem of_alignof (hmade : memo.Made config index maker) {align : Int}
    (h : (Sizing.alignof config index ref).run memo = (.ok align, later)) :
    ∃ layout, layout.align = align ∧ Prepares config index memo later ref layout := by
  induction ref with
  | scalar | pointer | rawPointer =>
    cases h
    exact ⟨_, rfl, .of_layout? hmade rfl⟩
  | named identity name =>
    obtain ⟨t, layout, hfind, hrun, rfl⟩ := Sizing.layoutOf_of_alignof_named h
    have hidentity := Index.identity_of_find? hfind
    subst hidentity
    exact ⟨layout, rfl, of_layoutOf hmade name hfind hrun⟩
  | array elem length ih =>
    obtain ⟨layout, rfl, hprepares⟩ := ih h
    have hlayout : (TypeRef.array elem length).layout? config (later.layoutIn index) =
        some (layout.ofElements length) := congrArg (Option.map _) hprepares.layout_eq
    exact ⟨layout.ofElements length, rfl, hprepares.grown, hprepares.answers, hlayout,
      hprepares.run_eq⟩
  | unsupported => cases h

variable (h : Prepares config index memo later ref layout) (hdvd : layout.align ∣ layout.size)
include h

theorem aligned : layout.Aligned config :=
  Sizing.aligned_of_answers h.answers h.layout_eq

include hdvd

theorem run_settle {w : TypeDef} {below : List TypeDef} {label : String}
    (hfields : w.fields = [⟨label, ref⟩]) (hnodup : ((w :: below).map (·.identity)).Nodup) :
    (waiting later (w :: below)).run config index =
      (waiting (later.insert w.identity layout) below).run config index := by
  have hanswers : ∀ reference ∈ references w.fields,
      index.Answers config (· = later) Sizing.remembered (later.layoutIn index) reference := by
    rw [w.references_of_singleton hfields]
    exact fun reference hmem => h.answers reference (Option.mem_toList.mp hmem)
  have hpending : later.firstPending w.fields = none := by
    refine List.find?_eq_none.mpr fun reference hmem => ?_
    obtain ⟨_, found, hfind, hfound, _⟩ := hanswers reference hmem
    unfold Memo.layoutIn at hfound
    simp only [hfind, Option.isSome_some, if_true] at hfound
    simp [hfound]
  have hlayout : ((Sizing.fieldLayout config index Sizing.remembered w).run later).1 =
      .ok layout := by
    rw [(Sizing.yields_fieldLayout hanswers later rfl).1, hfields]
    simp [h.layout_eq, Layout.ofFields_singleton h.aligned.1 hdvd, Sizing.orUnsupported]
  apply run_next
  have hstack : (waiting later (w :: below)).stack = w :: below := rfl
  have hmemo : (waiting later (w :: below)).memo = later := rfl
  rw [step_eq config index hstack, hmemo, hpending]
  simp only [hlayout]
  rw [settle_eq rfl hnodup hstack]
  rfl

/-- A struct of the index around the reference is prepared as the reference is, with the struct laid
out in the end. -/
theorem wrap {w : TypeDef} {label : String} (hfields : w.fields = [⟨label, ref⟩])
    (hfind : index.find? w.identity = some w) (hnew : w.identity ∉ later.identities)
    (name : String) :
    Prepares config index memo (later.insert w.identity layout) (.named w.identity name)
      layout := by
  have hlayout : (later.insert w.identity layout).layoutIn index w.identity = some layout := by
    rw [Memo.layoutIn, hfind]
    exact Memo.find?_insert_self ..
  refine ⟨h.grown.trans (Memo.extends_insert hnew layout), ?_, hlayout, ?_⟩
  · rintro reference ⟨⟩
    refine ⟨w, layout, hfind, hlayout, h.aligned, ?_⟩
    rintro _ rfl
    rw [Sizing.remembered_run (Memo.find?_insert_self ..)]
    exact ⟨rfl, rfl⟩
  · intro v below hrefs hnodup habsent
    have hwaits : w.identity ∉ (v :: below).map (·.identity) :=
      not_mem_map_identity (Memo.mem_identities_insert.mpr (.inl rfl)) habsent
    have hnodup' : ((w :: v :: below).map (·.identity)).Nodup := hnodup.cons hwaits
    have habsent' : ∀ t ∈ w :: v :: below, t.identity ∉ later.identities := by
      simp only [Memo.mem_identities_insert, not_or] at habsent
      exact List.forall_mem_cons.mpr ⟨hnew, fun t ht => (habsent t ht).2⟩
    rw [run_push (firstPending_of_references hrefs (h.grown.not_mem hnew)) hfind hwaits,
      h.run_eq w (v :: below) (w.references_of_singleton hfields) hnodup' habsent',
      h.run_settle hdvd hfields hnodup']

theorem layoutOf_run {w : TypeDef} {label : String} (hfields : w.fields = [⟨label, ref⟩])
    (hnew : w.identity ∉ later.identities) :
    (Sizing.layoutOf config index w).run memo =
      (.ok layout, later.insert w.identity layout) := by
  have hmemo : w.identity ∉ memo.identities := h.grown.not_mem hnew
  have hstart : (start memo w).run config index = (.ok (), later.insert w.identity layout) :=
    calc (start memo w).run config index
      _ = (waiting memo [w]).run config index := rfl
      _ = (waiting later [w]).run config index :=
        h.run_eq w [] (w.references_of_singleton hfields) (List.nodup_singleton _)
          (by simpa using hnew)
      _ = (waiting (later.insert w.identity layout) []).run config index :=
        h.run_settle hdvd hfields (List.nodup_singleton _)
      _ = (.ok (), later.insert w.identity layout) := run_nil _ _
  rw [Sizing.layoutOf_run, Memo.find?_eq_none_of_not_mem hmemo, hstart]
  exact Sizing.remembered_run (Memo.find?_insert_self ..)

end Prepares

end Progress

/-! Structs around structs. -/

/-- Structs with a single field each, the outermost first. The field of the last is the reference, and
that of any other is the struct after it, which the index holds. -/
inductive Index.Wrapped (index : Index) (ref : TypeRef) : List TypeDef → Prop where
  | innermost {w : TypeDef} {label : String} : w.fields = [⟨label, ref⟩] → Wrapped index ref [w]
  | around {w inner : TypeDef} {label name : String} {rest : List TypeDef} :
      w.fields = [⟨label, .named inner.identity name⟩] →
        index.find? inner.identity = some inner → Wrapped index ref (inner :: rest) →
          Wrapped index ref (w :: inner :: rest)

namespace Progress

variable {config : Config} {index : Index} {memo later : Memo} {ref : TypeRef} {layout : Layout}

theorem Prepares.wrapped (h : Prepares config index memo later ref layout)
    (hdvd : layout.align ∣ layout.size) {w : TypeDef} {rest : List TypeDef}
    (hwrapped : index.Wrapped ref (w :: rest)) (hnodup : ((w :: rest).map (·.identity)).Nodup)
    (hnew : ∀ t ∈ w :: rest, t.identity ∉ later.identities) :
    ∃ label inner last, w.fields = [⟨label, inner⟩] ∧
      Prepares config index memo last inner layout ∧
        ∀ identity ∈ last.identities, identity ∈ later.identities ∨
          identity ∈ rest.map (·.identity) := by
  induction rest generalizing w with
  | nil =>
    cases hwrapped with
    | innermost hfields => exact ⟨_, ref, later, hfields, h, fun _ => .inl⟩
  | cons inner rest ih =>
    cases hwrapped with
    | around hfields hfind hinner =>
      rw [List.map_cons, List.nodup_cons] at hnodup
      rw [List.forall_mem_cons] at hnew
      obtain ⟨label, deep, last, hdeep, hprepares, hlast⟩ := ih hinner hnodup.2 hnew.2
      have hfresh : inner.identity ∉ last.identities := by
        intro hmem
        rcases hlast _ hmem with hlater | hrest
        · exact hnew.2 inner List.mem_cons_self hlater
        · exact (List.nodup_cons.mp hnodup.2).1 hrest
      refine ⟨_, _, _, hfields, hprepares.wrap hdvd hdeep hfind hfresh _, ?_⟩
      intro identity hmem
      rw [Memo.mem_identities_insert] at hmem
      rcases hmem with rfl | hmem
      · exact .inr List.mem_cons_self
      · exact (hlast identity hmem).imp_right (List.mem_cons_of_mem _)

end Progress

namespace Sizing

theorem answers_of_alignof {config : Config} {index : Index} {memo later : Memo}
    {maker : String → Option TypeDef} (hmade : memo.Made config index maker) {ref : TypeRef}
    {align : Int} (h : (alignof config index ref).run memo = (.ok align, later)) :
    ∀ reference, ref.embedded = some reference →
      index.Answers config (fun m => m = memo ∨ m = later) (layoutOf config index)
        (later.layoutIn index) reference := by
  induction ref with
  | scalar | pointer | rawPointer | unsupported => exact nofun
  | named identity name =>
    rintro reference ⟨⟩
    obtain ⟨t, layout, hfind, hrun, _⟩ := layoutOf_of_alignof_named h
    have hidentity := Index.identity_of_find? hfind
    subst hidentity
    have hprepares := Progress.Prepares.of_layoutOf hmade name hfind hrun
    refine ⟨t, layout, hfind, hprepares.layout_eq, hprepares.aligned, ?_⟩
    rintro m (rfl | rfl)
    · rw [hrun]
      exact ⟨rfl, .inr rfl⟩
    · rw [recalls_layoutOf config index m t layout (find?_of_layoutOf hrun)]
      exact ⟨rfl, .inr rfl⟩
  | array elem length ih => exact ih h

/-- On a platform with powers of two, whatever is remembered: the alignment of a reference, if it has
one, divides its size, arrays of it have no padding, and structs around it that are new to the memo
are laid out as the reference itself. -/
theorem wrapping_costs_nothing (config : Config) (hbinary : config.Binary) (index : Index)
    (history : List Query) (ref : TypeRef) (hstandard : ref.Standard) (align : Int) (later : Memo)
    (halign : (alignof config index ref).run (memoAfter config index history []) =
      (.ok align, later)) :
    ∃ size, ((sizeof config index ref).run (memoAfter config index history [])).1 = .ok size ∧
      align ∣ size ∧
      (∀ n, 0 ≤ n → ((sizeof config index (.array ref n)).run
        (memoAfter config index history [])).1 = .ok (n * size)) ∧
      ∀ w rest, index.Wrapped ref (w :: rest) → ((w :: rest).map (·.identity)).Nodup →
        (∀ t ∈ w :: rest, t.identity ∉ later.identities) →
          ((footprint config index w).run (memoAfter config index history [])).1 = .ok size ∧
          ((layoutOf config index w).run (memoAfter config index history [])).1 =
            .ok ⟨size, align⟩ ∧
          ∀ name, index.find? w.identity = some w →
            ((alignof config index (.named w.identity name)).run
              (memoAfter config index history [])).1 = .ok align := by
  have hmade := made_memoAfter (Memo.made_nil config index fun _ => none) history
  generalize memoAfter config index history [] = memo at hmade halign ⊢
  have hlater := (Query.made_answer hmade (.align ref)).1
  rw [Query.answer, halign] at hlater
  obtain ⟨layout, rfl, hprepares⟩ := Progress.Prepares.of_alignof hmade halign
  have hdvd := (hstandard.dvd_layout? hbinary hlater.dvd_layoutIn hprepares.layout_eq).2
  refine ⟨layout.size, ?_, hdvd, fun n hn => ?_, fun w rest hwrapped hnodup hnew => ?_⟩
  · exact (yields_sizeWith (answers_of_alignof hmade halign) hprepares.layout_eq memo
      (.inl rfl)).1
  · have harray : (TypeRef.array ref n).layout? config (later.layoutIn index) =
        some (layout.ofElements n) := congrArg (Option.map _) hprepares.layout_eq
    have halign' : (alignof config index (.array ref n)).run memo = (.ok layout.align, later) :=
      halign
    rw [← Layout.size_ofElements hprepares.aligned.1 hdvd hn]
    exact (yields_sizeWith (answers_of_alignof hmade halign') harray memo (.inl rfl)).1
  · obtain ⟨label, inner, last, hfields, hlast, hmem⟩ :=
      hprepares.wrapped hdvd hwrapped hnodup hnew
    have hfresh : w.identity ∉ last.identities := by
      intro h
      rcases hmem _ h with h | h
      · exact hnew w List.mem_cons_self h
      · exact (List.nodup_cons.mp hnodup).1 h
    have hrun := hlast.layoutOf_run hdvd hfields hfresh
    refine ⟨?_, by rw [hrun], fun name hfind => ?_⟩
    · rw [footprint_run, hrun]
      rfl
    · have hlift : (liftM (index.require w.identity name) : Sizing TypeDef).run memo =
          (.ok w, memo) := by
        rw [Index.require_of_find? hfind]
        rfl
      rw [alignof, alignWith, run_bind_ok hlift, run_bind_ok hrun]
      rfl

def crateIndex : Index where
  definitions := [
    { identity := "Pair", name := "Pair", fields := [
      ⟨"a", .scalar { name := "int", words := 1 }⟩,
      ⟨"b", .scalar { name := "byte", size := 1 }⟩] },
    { identity := "Box", name := "Box", fields := [⟨"pairs", .array (.named "Pair" "Pair") 2⟩] },
    { identity := "Crate", name := "Crate", fields := [⟨"box", .named "Box" "Box"⟩] }]

def shipment : TypeDef where
  identity := "Shipment"
  name := "Shipment"
  fields := [⟨"crate", .named "Crate" "Crate"⟩]

def pairRow : TypeRef :=
  .array (.named "Pair" "Pair") 2

theorem wrapped_shipment : crateIndex.Wrapped pairRow
    (shipment :: (crateIndex.definitions.drop 1).reverse) :=
  .around rfl rfl (.around rfl rfl (.innermost rfl))

def crateHistory : List Query :=
  [.size (.named "Lost" "Lost"), .align (.named "Pair" "Pair")]

theorem wrapping_costs_nothing_shipment :
    Config.Binary {} ∧ pairRow.Standard ∧
    ((alignof {} crateIndex pairRow).run (memoAfter {} crateIndex crateHistory [])).1 = .ok 8 ∧
    ((sizeof {} crateIndex (.array pairRow 5)).run
      (memoAfter {} crateIndex crateHistory [])).1 = .ok (5 * 32) ∧
    ((layoutOf {} crateIndex shipment).run (memoAfter {} crateIndex crateHistory [])).1 =
      .ok ⟨32, 8⟩ := by
  have hbinary : Config.Binary {} := ⟨by decide, by decide⟩
  have halign : ((alignof {} crateIndex pairRow).run
      (memoAfter {} crateIndex crateHistory [])).1 = .ok 8 := by decide +kernel
  obtain ⟨size, hsize, _, harray, hwrapped⟩ := wrapping_costs_nothing {} hbinary crateIndex
    crateHistory pairRow trivial 8 _ (Prod.ext halign rfl)
  have h32 : (.ok size : Except LayoutError Int) = .ok 32 := hsize.symm.trans (by decide +kernel)
  cases h32
  have hshipment := hwrapped _ _ wrapped_shipment (by decide) (by decide +kernel)
  exact ⟨hbinary, trivial, halign, harray 5 (by decide), hshipment.2.1⟩

def loopIndex : Index where
  definitions := [
    { identity := "Loop", name := "Loop", fields := [⟨"next", .named "Loop" "Loop"⟩] }]

/-- An empty array of a struct that contains itself has a size, but it has no alignment; so an array
that holds one such array has no size. -/
theorem empty_array_of_loop_has_no_alignment :
    Config.Binary {} ∧ (TypeRef.array (.named "Loop" "Loop") 0).Standard ∧
    ((sizeof {} loopIndex (.array (.named "Loop" "Loop") 0)).run []).1 = .ok 0 ∧
    ((alignof {} loopIndex (.array (.named "Loop" "Loop") 0)).run []).1 =
      .error (.containsItself "Loop") ∧
    ((sizeof {} loopIndex (.array (.array (.named "Loop" "Loop") 0) 1)).run []).1 =
      .error (.containsItself "Loop") :=
  ⟨⟨by decide, by decide⟩, trivial, by decide +kernel, by decide +kernel, by decide +kernel⟩

end Sizing

end CopyLint
