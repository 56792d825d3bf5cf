import CopyLint.Proofs.Footprint
import CopyLint.Proofs.MemoHistory

/-! What the memo holds after questions about definitions of the index. It only grows, what it holds
are the recursive layouts of the index, and with a definition it holds all that the definition
reaches; so a footprint adds exactly what it needs, and a failure adds nothing that is broken. -/
namespace CopyLint

namespace Memo

variable {config : Config} {index : Index} {memo : Memo}

/-- What every memo is like that such questions leave behind. -/
structure Faithful (config : Config) (index : Index) (memo : Memo) : Prop where
  nodup : memo.identities.Nodup
  layouts : ∀ identity layout, (identity, layout) ∈ memo →
    index.layout? config identity = some layout
  closed : ∀ outer inner, index.Embeds outer inner → outer ∈ memo.identities →
    inner ∈ memo.identities

theorem faithful_nil (config : Config) (index : Index) : Memo.Faithful config index [] where
  nodup := List.nodup_nil
  layouts := nofun
  closed := nofun

theorem mem_of_find? {identity : String} {layout : Layout}
    (h : memo.find? identity = some layout) : (identity, layout) ∈ memo := by
  obtain ⟨before, after, hsplit, _⟩ := List.lookup_eq_some_iff.mp h
  rw [hsplit]
  simp

theorem Faithful.correct (h : memo.Faithful config index) : memo.Correct config index :=
  fun identity layout hfound => h.layouts identity layout (mem_of_find? hfound)

theorem Faithful.isSome_layout? (h : memo.Faithful config index) {identity : String}
    (hmem : identity ∈ memo.identities) : (index.layout? config identity).isSome :=
  h.correct.isSome_layout? ((memo.isSome_find? identity).mpr hmem)

theorem Faithful.insert (h : memo.Faithful config index) {identity : String} {layout : Layout}
    (hnew : identity ∉ memo.identities) (hlayout : index.layout? config identity = some layout)
    (hinner : ∀ inner, index.Embeds identity inner → inner ∈ memo.identities) :
    (memo.insert identity layout).Faithful config index where
  nodup := List.nodup_cons.mpr ⟨hnew, h.nodup⟩
  layouts := by
    intro other found hmem
    rcases List.mem_cons.mp hmem with hfirst | hmem
    · cases hfirst
      exact hlayout
    · exact h.layouts other found hmem
  closed := by
    intro outer inner hembeds hmem
    rw [mem_identities_insert] at hmem ⊢
    right
    rcases hmem with rfl | hmem
    · exact hinner inner hembeds
    · exact h.closed outer inner hembeds hmem

theorem Faithful.mem_of_reaches (h : memo.Faithful config index) {outer inner : String}
    (hreaches : index.Reaches outer inner) (hmem : outer ∈ memo.identities) :
    inner ∈ memo.identities := by
  induction hreaches with
  | step hembeds => exact h.closed _ _ hembeds hmem
  | trans hembeds _ ih => exact ih (h.closed _ _ hembeds hmem)

theorem Faithful.not_mem_of_broken (h : memo.Faithful config index) {identity : String}
    (hbroken : ¬(index.Closed identity ∧ index.Acyclic identity)) : identity ∉ memo.identities :=
  fun hmem => hbroken (Index.closed_and_acyclic_of_isSome_layout? (h.isSome_layout? hmem))

end Memo

namespace Progress

variable {config : Config} {index : Index} {memo : Memo} {p q : Progress} {top : TypeDef}
  {below : List TypeDef}

/-- What holds whenever a run looks at its stack, for the memo that it started with. -/
structure Tidy (config : Config) (index : Index) (memo : Memo) (p : Progress) : Prop
    extends p.Sound config index where
  absent : ∀ identity ∈ p.active, identity ∉ p.memo.identities
  faithful : p.memo.Faithful config index
  grown : memo <:+ p.memo

theorem tidy_start {t : TypeDef} (hmemo : memo.Faithful config index)
    (hfind : index.find? t.identity = some t) (hnew : t.identity ∉ memo.identities) :
    (start memo t).Tidy config index memo where
  toSound := sound_start hmemo.correct hfind
  absent := by simpa [start] using hnew
  faithful := hmemo
  grown := List.suffix_refl memo

theorem Tidy.push (h : p.Tidy config index memo) (hstack : p.stack = top :: below) {t : TypeDef}
    {name : String} (hpending : p.memo.firstPending top.fields = some (t.identity, name))
    (hfind : index.find? t.identity = some t) (hactive : t.identity ∉ p.active) :
    (p.push t).Tidy config index memo where
  toSound := h.toSound.push hstack hfind (h.embeds_pending hstack hpending) hactive
  absent := List.forall_mem_cons.mpr ⟨(Memo.firstPending_eq_some hpending).2, h.absent⟩
  faithful := h.faithful
  grown := h.grown

theorem Tidy.settle (h : p.Tidy config index memo) (hstack : p.stack = top :: below)
    (hpending : p.memo.firstPending top.fields = none) {layout : Layout}
    (hlayout : ((Sizing.fieldLayout config index Sizing.remembered top).run p.memo).1 =
      .ok layout) : (p.settle top below layout).Tidy config index memo := by
  have hfind : index.find? top.identity = some top := h.find?_top hstack
  have hactive : p.active = top.identity :: below.map (·.identity) := by
    rw [h.active_eq, hstack, List.map_cons]
  have hnodup : top.identity ∉ below.map (·.identity) ∧ (below.map (·.identity)).Nodup := by
    rw [← List.nodup_cons, ← hactive]
    exact h.nodup
  have hnew : top.identity ∉ p.memo.identities := h.absent _ (by simp [hactive])
  have hfound : index.layout? config top.identity = some layout := by
    rw [Sizing.fieldLayout_remembered h.correct hfind hpending] at hlayout
    cases hrecursive : index.layout? config top.identity with
    | none => simp [hrecursive, Sizing.orUnsupported] at hlayout
    | some found => simpa [hrecursive, Sizing.orUnsupported] using hlayout
  have hinner : ∀ inner, index.Embeds top.identity inner → inner ∈ p.memo.identities := by
    intro inner hembeds
    obtain ⟨t, ht, name, hmem⟩ := hembeds.exists_reference
    cases hfind.symm.trans ht
    rw [← Memo.isSome_find?]
    exact Memo.isSome_find?_of_firstPending hpending _ hmem
  have hfaithful := h.faithful.insert hnew hfound hinner
  rw [settle_eq h.active_eq h.nodup hstack]
  refine ⟨⟨rfl, hnodup.2, fun t ht => ?_, ?_, hfaithful.correct⟩, fun identity hmem => ?_,
    hfaithful, h.grown.trans (List.suffix_cons _ _)⟩
  · exact h.stored t (hstack ▸ List.mem_cons_of_mem top ht)
  · have hchain := h.chain
    rw [hstack] at hchain
    exact hchain.tail
  · rw [Memo.mem_identities_insert, not_or]
    exact ⟨fun heq => hnodup.1 (heq ▸ hmem), h.absent identity (by simp [hactive, hmem])⟩

theorem Tidy.step (h : p.Tidy config index memo) (hstep : p.step config index = .next q) :
    q.Tidy config index memo := by
  obtain ⟨top, below, hstack, hnext⟩ := step_next hstep
  obtain ⟨t, name, hpending, hfind, hactive, rfl⟩ | ⟨hpending, layout, hlayout, rfl⟩ := hnext
  · exact h.push hstack hpending hfind hactive
  · exact h.settle hstack hpending hlayout

theorem Tidy.run (h : p.Tidy config index memo) :
    (p.run config index).2.Faithful config index ∧ memo <:+ (p.run config index).2 := by
  fun_induction Progress.run config index p with
  | case1 p hstep => exact ⟨h.faithful, h.grown⟩
  | case2 p cause hstep => exact ⟨h.faithful, h.grown⟩
  | case3 p q hstep ih => exact ih (h.step hstep)

end Progress

namespace Sizing

variable {config : Config} {index : Index} {memo later : Memo} {t : TypeDef}

theorem faithful_layoutOf (hmemo : memo.Faithful config index)
    (hfind : index.find? t.identity = some t) :
    ((layoutOf config index t).run memo).2.Faithful config index ∧
      memo <:+ ((layoutOf config index t).run memo).2 := by
  rw [memo_layoutOf]
  split
  · exact ⟨hmemo, List.suffix_refl memo⟩
  · rename_i hfound
    have hnew : t.identity ∉ memo.identities := by simpa [Memo.isSome_find?] using hfound
    exact (Progress.tidy_start hmemo hfind hnew).run

theorem Query.faithful_answer (query : Query) (hstored : query.Stored index)
    (hmemo : memo.Faithful config index) :
    ((query.answer config index).run memo).2.Faithful config index ∧
      memo <:+ ((query.answer config index).run memo).2 := by
  have hkeeps : ∀ t, index.find? t.identity = some t → Keeps (fun later =>
      later.Faithful config index ∧ memo <:+ later) (layoutOf config index t) := by
    intro t hfind later hlater
    have hnext := faithful_layoutOf hlater.1 hfind
    exact ⟨hnext.1, hlater.2.trans hnext.2⟩
  exact query.keeps_answer hkeeps hstored memo ⟨hmemo, List.suffix_refl memo⟩

theorem faithful_memoAfter {history : List Query} (hstored : ∀ query ∈ history, query.Stored index)
    (hmemo : memo.Faithful config index) :
    (memoAfter config index history memo).Faithful config index := by
  have hkeeps : ∀ t, index.find? t.identity = some t →
      Keeps (Memo.Faithful config index) (layoutOf config index t) :=
    fun t hfind later hlater => (faithful_layoutOf hlater hfind).1
  exact keeps_memoAfter hkeeps hstored hmemo

theorem grows_layoutOf (hmemo : memo.Faithful config index)
    (hfind : index.find? t.identity = some t) :
    memo.Grows index t.identity ((layoutOf config index t).run memo).2 := by
  rw [memo_layoutOf]
  split
  · exact .refl _ _ memo
  · cases Progress.resolves (Progress.sound_start hmemo.correct hfind) rfl with
    | laidOut _ _ hgrows _ hrun =>
      rw [hrun, List.map_nil, Progress.run_nil]
      exact hgrows
    | failed _ _ hgrows hrun =>
      rw [hrun]
      exact hgrows

theorem mem_identities_of_footprint (hmemo : memo.Faithful config index)
    (hfind : index.find? t.identity = some t) {size : Int}
    (h : (footprint config index t).run memo = (.ok size, later)) (identity : String) :
    identity ∈ later.identities ↔
      identity ∈ memo.identities ∨ identity = t.identity ∨ index.Reaches t.identity identity := by
  rw [footprint_run] at h
  cases hrun : (layoutOf config index t).run memo with
  | mk answer found =>
    have hgrows := grows_layoutOf hmemo hfind
    have hfaithful := (faithful_layoutOf hmemo hfind).1
    rw [hrun] at h hgrows hfaithful
    cases answer with
    | error cause => cases h
    | ok layout =>
      cases h
      have hroot : t.identity ∈ found.identities := by
        rw [← Memo.isSome_find?]
        exact Option.isSome_of_eq_some (find?_of_layoutOf hrun)
      constructor
      · intro hmem
        rcases hgrows.added identity hmem with hold | rfl | hreaches
        · exact .inl hold
        · exact .inr (.inl rfl)
        · exact .inr (.inr hreaches)
      · rintro (hold | rfl | hreaches)
        · exact hgrows.kept identity hold
        · exact hroot
        · exact hfaithful.mem_of_reaches hreaches hroot

theorem not_mem_identities_of_footprint (hmemo : memo.Faithful config index)
    (hfind : index.find? t.identity = some t) {cause : LayoutError}
    (h : (footprint config index t).run memo = (.error cause, later)) :
    t.identity ∉ later.identities := by
  have hanswer := yields_footprint hfind memo hmemo.correct
  have hfaithful := (Query.faithful_answer (.footprint t) hfind hmemo).1
  rw [Query.answer] at hfaithful
  rw [h] at hanswer hfaithful
  intro hmem
  obtain ⟨layout, hlayout⟩ := Option.isSome_iff_exists.mp (hfaithful.isSome_layout? hmem)
  rw [Index.layoutOrFailure, hlayout] at hanswer
  cases hanswer.1

/-- After any questions about definitions of the index, one more question, answered or not, puts new
layouts before the old ones and changes none of these. The memo holds no identity twice and only
recursive layouts, and with each definition it holds those that it embeds. A footprint that is found
has added the definition and what it reaches, as far as it was not there; one that is not found has
added neither the definition nor any from which a cycle or a missing definition is reached. -/
theorem memo_is_exact_after_each_question (config : Config) (index : Index) (history : List Query)
    (hhistory : ∀ query ∈ history, query.Stored index) (query : Query)
    (hquery : query.Stored index) (answer : Except LayoutError Int) (later : Memo)
    (hanswer : (query.answer config index).run (memoAfter config index history []) =
      (answer, later)) :
    (memoAfter config index history []).Faithful config index ∧ later.Faithful config index ∧
    (∃ added, later = added ++ memoAfter config index history []) ∧
    ∀ t, query = .footprint t →
      (∀ size, answer = .ok size → ∀ identity, identity ∈ later.identities ↔
        identity ∈ (memoAfter config index history []).identities ∨ identity = t.identity ∨
          index.Reaches t.identity identity) ∧
      ∀ cause, answer = .error cause → t.identity ∉ later.identities ∧
        ∀ identity, ¬(index.Closed identity ∧ index.Acyclic identity) →
          identity ∉ later.identities := by
  have hmemo : (memoAfter config index history []).Faithful config index :=
    faithful_memoAfter hhistory (Memo.faithful_nil config index)
  obtain ⟨hlater, added, hadded⟩ := query.faithful_answer hquery hmemo
  rw [hanswer] at hlater hadded
  refine ⟨hmemo, hlater, ⟨added, hadded.symm⟩, ?_⟩
  rintro t rfl
  constructor
  · rintro size rfl
    exact mem_identities_of_footprint hmemo hquery hanswer
  · rintro cause rfl
    exact ⟨not_mem_identities_of_footprint hmemo hquery hanswer,
      fun identity => hlater.not_mem_of_broken⟩

def pairStruct : TypeDef where
  identity := "Pair"
  name := "Pair"
  fields := [⟨"a", .scalar { name := "int64", size := 8 }⟩,
    ⟨"b", .scalar { name := "byte", size := 1 }⟩]

def rowStruct : TypeDef where
  identity := "Row"
  name := "Row"
  fields := [⟨"pairs", .array (.named "Pair" "Pair") 2⟩, ⟨"end", .rawPointer ""⟩]

def loopStruct : TypeDef where
  identity := "Loop"
  name := "Loop"
  fields := [⟨"row", .named "Row" "Row"⟩, ⟨"again", .array (.named "Loop" "Loop") 0⟩]

def strayStruct : TypeDef where
  identity := "Stray"
  name := "Stray"
  fields := [⟨"pair", .named "Pair" "Pair"⟩, ⟨"lost", .named "Gone" "Gone"⟩]

def yardIndex : Index :=
  ⟨[pairStruct, rowStruct, loopStruct, strayStruct]⟩

/-- The stray struct leaves the pair behind when it fails. After it, the row adds itself alone, and
the loop, which fails too, adds the row and not itself. -/
theorem memo_is_exact_after_each_question_yard :
    (∀ query ∈ [Query.footprint strayStruct], query.Stored yardIndex) ∧
    (Query.footprint rowStruct).Stored yardIndex ∧ (Query.footprint loopStruct).Stored yardIndex ∧
    memoAfter {} yardIndex [.footprint strayStruct] [] = [("Pair", ⟨16, 8⟩)] ∧
    (footprint {} yardIndex rowStruct).run [("Pair", ⟨16, 8⟩)] =
      (.ok 40, [("Row", ⟨40, 8⟩), ("Pair", ⟨16, 8⟩)]) ∧
    (∀ identity, identity ∈ ["Row", "Pair"] ↔
      identity ∈ ["Pair"] ∨ identity = "Row" ∨ yardIndex.Reaches "Row" identity) ∧
    (footprint {} yardIndex loopStruct).run [("Pair", ⟨16, 8⟩)] =
      (.error (.containsItself "Loop"), [("Row", ⟨40, 8⟩), ("Pair", ⟨16, 8⟩)]) ∧
    ∀ identity, ¬(yardIndex.Closed identity ∧ yardIndex.Acyclic identity) →
      identity ∉ ["Row", "Pair"] := by
  have hhistory : ∀ query ∈ [Query.footprint strayStruct], query.Stored yardIndex := by decide
  have hmemo : memoAfter {} yardIndex [.footprint strayStruct] [] = [("Pair", ⟨16, 8⟩)] := by
    decide +kernel
  have hrow : (footprint {} yardIndex rowStruct).run [("Pair", ⟨16, 8⟩)] =
      (.ok 40, [("Row", ⟨40, 8⟩), ("Pair", ⟨16, 8⟩)]) :=
    Prod.ext (by decide +kernel) (by decide +kernel)
  have hloop : (footprint {} yardIndex loopStruct).run [("Pair", ⟨16, 8⟩)] =
      (.error (.containsItself "Loop"), [("Row", ⟨40, 8⟩), ("Pair", ⟨16, 8⟩)]) :=
    Prod.ext (by decide +kernel) (by decide +kernel)
  have hexact := memo_is_exact_after_each_question {} yardIndex _ hhistory
  rw [hmemo] at hexact
  have hadded := (hexact (.footprint rowStruct) rfl _ _ hrow).2.2.2 rowStruct rfl
  have hspared := (hexact (.footprint loopStruct) rfl _ _ hloop).2.2.2 loopStruct rfl
  exact ⟨hhistory, rfl, rfl, hmemo, hrow, hadded.1 40 rfl, hloop, (hspared.2 _ rfl).2⟩

end Sizing

end CopyLint
