import CopyLint.Proofs.MemoContents

/-! The loop that lays out a definition, turn by turn. The layouts of the definitions that a field
refers to are left to another computation, which could be the loop itself. It never comes to that:
when the fields of a definition are placed, all that they refer to is in the memo. So the loop takes
no more than two turns for each definition of the index, and starts no other loop. -/
namespace CopyLint

namespace Progress

/-- What one turn does, with the state at the head of the next one. -/
inductive Turn where
  | entered (t : TypeDef) (next : Progress)
  | laidOut (t : TypeDef) (next : Progress)
  | ended (outcome : Except LayoutError Unit) (memo : Memo)

namespace Turn

def next? : Turn → Option Progress
  | entered _ next => some next
  | laidOut _ next => some next
  | ended _ _ => none

def entered? : Turn → Option String
  | entered t _ => some t.identity
  | _ => none

def laidOut? : Turn → Option String
  | laidOut t _ => some t.identity
  | _ => none

end Turn

section

variable (config : Config) (index : Index) (inner : TypeDef → Sizing Layout)

/-- A field that refers to a definition gets its layout from `inner`, which may change the memo. -/
def turn (p : Progress) : Turn :=
  match p.stack with
  | [] => .ended (.ok ()) p.memo
  | top :: below =>
    match Sizing.pending index p.memo top.fields with
    | .error cause => .ended (.error cause) p.memo
    | .ok (some t) =>
      if t.identity ∈ p.active then .ended (.error (.containsItself t.name)) p.memo
      else .entered t (p.push t)
    | .ok none =>
      match (Sizing.fieldLayout config index inner top).run p.memo with
      | (.ok layout, found) => .laidOut top (settle { p with memo := found } top below layout)
      | (.error cause, found) => .ended (.error cause) found

def turns : Nat → Progress → List Turn
  | 0, _ => []
  | n + 1, p =>
    p.turn config index inner ::
      match (p.turn config index inner).next? with
      | some next => turns n next
      | none => []

def heads (n : Nat) (p : Progress) : List Progress :=
  p :: (p.turns config index inner n).filterMap Turn.next?

end

/-- What the head of a turn looks like in a loop that was started for the root. -/
structure AtHead (index : Index) (root : TypeDef) (p : Progress) : Prop where
  rooted : ∀ t ∈ p.stack.getLast?, t = root
  stored : ∀ t ∈ p.stack, index.find? t.identity = some t
  path : p.stack.IsChain fun upper lower => index.Embeds lower.identity upper.identity
  distinct : (p.stack.map (·.identity)).Nodup
  active_iff : ∀ identity, identity ∈ p.active ↔ identity ∈ p.stack.map (·.identity)
  unsettled : ∀ identity ∈ p.active, identity ∉ p.memo.identities

/-- Fields are placed when the definitions that they refer to, directly or in arrays, are in the
memo, so that `inner` is asked for nothing but what is remembered. -/
def Prepared (config : Config) (index : Index) (inner : TypeDef → Sizing Layout) (p : Progress) :
    Prop :=
  ∀ top below, p.stack = top :: below → Sizing.pending index p.memo top.fields = .ok none →
    (∀ field ∈ top.fields, ∀ identity name, field.type.core = .named identity name →
      (p.memo.find? identity).isSome) ∧
    (Sizing.fieldLayout config index inner top).run p.memo =
      (Sizing.fieldLayout config index Sizing.remembered top).run p.memo

end Progress

/-- Memos that loops for definitions of the index leave behind, one after the other, also those that
are broken off between two steps. -/
inductive Memo.Reached (config : Config) (index : Index) : Memo → Prop where
  | empty : Memo.Reached config index []
  | loop {memo : Memo} {t : TypeDef} {p : Progress} :
      memo.Reached config index → index.find? t.identity = some t →
        t.identity ∉ memo.identities →
          Relation.ReflTransGen (fun p q => Progress.step config index p = .next q)
            (.start memo t) p →
          Memo.Reached config index p.memo

namespace Progress

variable {config : Config} {index : Index} {inner : TypeDef → Sizing Layout} {memo : Memo}
  {root : TypeDef} {p q : Progress}

structure Guarded (config : Config) (index : Index) (memo : Memo) (root : TypeDef)
    (p : Progress) : Prop extends p.Tidy config index memo where
  rooted : ∀ t ∈ p.stack.getLast?, t = root

theorem guarded_start (hmemo : memo.Faithful config index)
    (hfind : index.find? root.identity = some root) (hnew : root.identity ∉ memo.identities) :
    (start memo root).Guarded config index memo root where
  toTidy := tidy_start hmemo hfind hnew
  rooted := by simp [start]

theorem Guarded.step (h : p.Guarded config index memo root)
    (hstep : p.step config index = .next q) : q.Guarded config index memo root where
  toTidy := h.toTidy.step hstep
  rooted := by
    obtain ⟨top, below, hstack, hnext⟩ := step_next hstep
    obtain ⟨t, _, _, _, _, rfl⟩ | ⟨_, layout, _, rfl⟩ := hnext
    · rw [getLast?_push (by simp [hstack])]
      exact h.rooted
    · intro t ht
      exact h.rooted t (mem_getLast?_of_below hstack ht)

theorem Guarded.atHead (h : p.Guarded config index memo root) : p.AtHead index root where
  rooted := h.rooted
  stored := h.stored
  path := h.chain
  distinct := h.active_eq ▸ h.nodup
  active_iff identity := by rw [h.active_eq]
  unsettled := h.absent

theorem Tidy.fieldLayout_run (h : p.Tidy config index memo) (hinner : Sizing.Recalls p.memo inner)
    {top : TypeDef} {below : List TypeDef} (hstack : p.stack = top :: below)
    (hpending : Sizing.pending index p.memo top.fields = .ok none) :
    (Sizing.fieldLayout config index inner top).run p.memo =
      (Sizing.orUnsupported (index.layout? config top.identity), p.memo) :=
  Sizing.fieldLayout_run_of_recalls h.correct hinner (h.find?_top hstack)
    (Sizing.firstPending_of_pending hpending)

theorem Tidy.prepared (h : p.Tidy config index memo) (hinner : Sizing.Recalls p.memo inner) :
    p.Prepared config index inner := by
  intro top below hstack hpending
  constructor
  · intro field hfield identity name hcore
    have hfirst := Sizing.firstPending_of_pending hpending
    refine Memo.isSome_find?_of_firstPending hfirst (identity, name) ?_
    exact mem_references.mpr ⟨field, hfield, TypeRef.embedded_eq_some_iff.mpr hcore⟩
  · rw [h.fieldLayout_run hinner hstack hpending,
      h.fieldLayout_run (Sizing.recalls_remembered p.memo) hstack hpending]

/-- All that a turn can do from a tidy state: what a step does, and never with an identity that is
in the memo. -/
inductive Takes (config : Config) (index : Index) (p : Progress) : Turn → Prop where
  | entered {t : TypeDef} (hstep : p.step config index = .next (p.push t))
      (hactive : t.identity ∉ p.active) (hmemo : t.identity ∉ p.memo.identities) :
      Takes config index p (.entered t (p.push t))
  | laidOut {top : TypeDef} {below : List TypeDef} {layout : Layout}
      (hstep : p.step config index = .next (p.settle top below layout))
      (hmemo : top.identity ∉ p.memo.identities) :
      Takes config index p (.laidOut top (p.settle top below layout))
  | ended {outcome : Except LayoutError Unit} (hstep : ∀ q, p.step config index ≠ .next q)
      (hrun : p.run config index = (outcome, p.memo)) :
      Takes config index p (.ended outcome p.memo)

theorem takes_of_failed {cause : LayoutError} (h : p.step config index = .failed cause) :
    p.Takes config index (.ended (.error cause) p.memo) :=
  .ended (by simp [h]) (run_failed h)

theorem Takes.next?_eq_some_iff {turn : Turn} (h : p.Takes config index turn) :
    turn.next? = some q ↔ p.step config index = .next q := by
  cases h with
  | entered hstep | laidOut hstep => simp [hstep, Turn.next?]
  | ended hstep => simp [hstep q, Turn.next?]

theorem Tidy.takes_turn (h : p.Tidy config index memo) (hinner : Sizing.Recalls p.memo inner) :
    p.Takes config index (p.turn config index inner) := by
  unfold turn
  split
  · rename_i hstack
    have hstep : p.step config index = .finished := by rw [Progress.step, hstack]
    exact .ended (by simp [hstep]) (by rw [run_eq, hstep])
  · rename_i top below hstack
    split
    · rename_i cause hpending
      refine takes_of_failed ?_
      simp only [Progress.step, hstack, hpending]
    · rename_i t hpending
      split
      · rename_i hactive
        refine takes_of_failed ?_
        simp only [Progress.step, hstack, hpending, hactive, ↓reduceIte]
      · rename_i hactive
        refine .entered ?_ hactive (pending_eq_some _ hpending).2
        simp only [Progress.step, hstack, hpending, hactive, ↓reduceIte]
    · -- The only place where `inner` is asked; a step asks the memo there.
      rename_i hpending
      have hremembered := h.fieldLayout_run (Sizing.recalls_remembered p.memo) hstack hpending
      rw [h.fieldLayout_run hinner hstack hpending]
      cases hlayout : Sizing.orUnsupported (index.layout? config top.identity) with
      | ok layout =>
        rw [hlayout] at hremembered
        refine .laidOut ?_ (h.absent _ ?_)
        · simp only [Progress.step, hstack, hpending, hremembered]
        · simp [h.active_eq, hstack]
      | error cause =>
        rw [hlayout] at hremembered
        refine takes_of_failed ?_
        simp only [Progress.step, hstack, hpending, hremembered]

theorem Guarded.heads (hinner : ∀ later, Sizing.Recalls later inner) (n : Nat)
    (h : p.Guarded config index memo root) :
    ∀ q ∈ p.heads config index inner n, q.Guarded config index memo root := by
  induction n generalizing p with
  | zero => simpa [Progress.heads, turns] using h
  | succ n ih =>
    refine List.forall_mem_cons.mpr ⟨h, ?_⟩
    rw [turns]
    cases hnext : (p.turn config index inner).next? with
    | none => simp [hnext]
    | some q =>
      rw [List.filterMap_cons_some hnext]
      exact ih (h.step ((h.takes_turn (hinner p.memo)).next?_eq_some_iff.mp hnext))

/-- The event happens to identities not seen before, which are seen from then on. -/
structure Once (config : Config) (index : Index) (event : Turn → Option String)
    (seen : Progress → String → Prop) : Prop where
  fresh : ∀ {p turn identity}, Takes config index p turn → event turn = some identity →
    ¬seen p identity
  marked : ∀ {p q turn identity}, Takes config index p turn → turn.next? = some q →
    event turn = some identity → seen q identity
  kept : ∀ {p q turn identity}, Takes config index p turn → turn.next? = some q →
    seen p identity → seen q identity
  ended : ∀ {turn}, turn.next? = none → event turn = none

theorem once_entered (config : Config) (index : Index) : Once config index Turn.entered?
    fun p identity => identity ∈ p.active ∨ identity ∈ p.memo.identities where
  fresh htakes hevent := by
    cases htakes with
    | entered hstep hactive hmemo =>
      cases hevent
      exact not_or.mpr ⟨hactive, hmemo⟩
    | laidOut | ended => cases hevent
  marked htakes hnext hevent := by
    cases htakes with
    | entered =>
      cases hnext
      cases hevent
      exact .inl List.mem_cons_self
    | laidOut | ended => cases hevent
  kept {p q turn identity} htakes hnext hseen := by
    cases htakes with
    | entered =>
      cases hnext
      exact hseen.imp_left (List.mem_cons_of_mem _)
    | @laidOut top =>
      cases hnext
      by_cases htop : identity = top.identity
      · exact .inr (Memo.mem_identities_insert.mpr (.inl htop))
      · refine hseen.imp (fun hactive => ?_) fun hmemo => ?_
        · exact List.mem_filter.mpr ⟨hactive, by simpa using htop⟩
        · exact Memo.mem_identities_insert.mpr (.inr hmemo)
    | ended => cases hnext
  ended {turn} hnext := by
    cases turn with
    | entered => cases hnext
    | laidOut | ended => rfl

theorem once_laidOut (config : Config) (index : Index) : Once config index Turn.laidOut?
    fun p identity => identity ∈ p.memo.identities where
  fresh htakes hevent := by
    cases htakes with
    | laidOut hstep hmemo =>
      cases hevent
      exact hmemo
    | entered | ended => cases hevent
  marked htakes hnext hevent := by
    cases htakes with
    | laidOut =>
      cases hnext
      cases hevent
      exact Memo.mem_identities_insert.mpr (.inl rfl)
    | entered | ended => cases hevent
  kept htakes hnext hseen := by
    cases htakes with
    | entered =>
      cases hnext
      exact hseen
    | laidOut =>
      cases hnext
      exact Memo.mem_identities_insert.mpr (.inr hseen)
    | ended => cases hnext
  ended {turn} hnext := by
    cases turn with
    | laidOut => cases hnext
    | entered | ended => rfl

theorem Once.nodup_turns {event : Turn → Option String} {seen : Progress → String → Prop}
    (honce : Once config index event seen) (hinner : ∀ later, Sizing.Recalls later inner) (n : Nat)
    (h : p.Tidy config index memo) :
    ((p.turns config index inner n).filterMap event).Nodup ∧
      ∀ identity ∈ (p.turns config index inner n).filterMap event, ¬seen p identity := by
  induction n generalizing p with
  | zero => simp [turns]
  | succ n ih =>
    have htakes := h.takes_turn (hinner p.memo)
    rw [turns]
    cases hnext : (p.turn config index inner).next? with
    | none => simp [honce.ended hnext]
    | some q =>
      obtain ⟨hnodup, hlater⟩ := ih (h.step (htakes.next?_eq_some_iff.mp hnext))
      have hunseen : ∀ identity ∈ (q.turns config index inner n).filterMap event,
          ¬seen p identity :=
        fun identity hmem hseen => hlater identity hmem (honce.kept htakes hnext hseen)
      cases hevent : event (p.turn config index inner) with
      | none =>
        rw [List.filterMap_cons_none hevent]
        exact ⟨hnodup, hunseen⟩
      | some identity =>
        have hafter := honce.marked htakes hnext hevent
        rw [List.filterMap_cons_some hevent, List.nodup_cons, List.forall_mem_cons]
        exact ⟨⟨fun hmem => hlater identity hmem hafter, hnodup⟩,
          honce.fresh htakes hevent, hunseen⟩

/-- Each turn but the last takes something off the weight, so the loop ends, and as the run does. -/
theorem Tidy.getLast?_turns (hinner : ∀ later, Sizing.Recalls later inner) {n : Nat}
    (hn : p.weight index < n) (h : p.Tidy config index memo) :
    (p.turns config index inner n).getLast? =
      some (.ended (p.run config index).1 (p.run config index).2) := by
  induction n generalizing p with
  | zero => omega
  | succ n ih =>
    have htakes := h.takes_turn (hinner p.memo)
    rw [turns]
    cases hnext : (p.turn config index inner).next? with
    | none =>
      generalize p.turn config index inner = turn at htakes hnext
      cases htakes with
      | entered | laidOut => cases hnext
      | ended hstep hrun => simp [hrun]
    | some q =>
      have hstep := htakes.next?_eq_some_iff.mp hnext
      have hless := weight_step hstep
      have hlast := ih (by omega) (h.step hstep)
      rw [run_next hstep, List.getLast?_cons]
      dsimp only
      rw [hlast, Option.getD_some]

theorem weight_start_lt {t : TypeDef} (hfind : index.find? t.identity = some t) (memo : Memo) :
    (start memo t).weight index < 2 * index.definitions.length := by
  have hlt : ((start memo t).fresh index).length < index.identities.length := by
    rw [fresh, List.length_filter_lt_length_iff_exists]
    exact ⟨t.identity, Index.mem_identities_of_find? hfind, by simp [start]⟩
  rw [Index.identities, List.length_map] at hlt
  simp only [weight, start, List.length_singleton] at *
  omega

theorem Tidy.steps (h : p.Tidy config index memo)
    (hsteps : Relation.ReflTransGen (fun p q => p.step config index = .next q) p q) :
    q.Tidy config index memo := by
  induction hsteps with
  | refl => exact h
  | tail _ hstep ih => exact ih.step hstep

end Progress

namespace Memo.Reached

variable {config : Config} {index : Index} {memo : Memo} {t : TypeDef} {p : Progress}

theorem faithful (h : memo.Reached config index) : memo.Faithful config index := by
  induction h with
  | empty => exact faithful_nil config index
  | loop _ hfind hnew hsteps ih => exact ((Progress.tidy_start ih hfind hnew).steps hsteps).faithful

theorem run (h : memo.Reached config index) (hfind : index.find? t.identity = some t)
    (hnew : t.identity ∉ memo.identities)
    (hsteps : Relation.ReflTransGen (fun p q => p.step config index = .next q)
      (Progress.start memo t) p) : (p.run config index).2.Reached config index := by
  fun_induction Progress.run config index p with
  | case1 p hstep => exact h.loop hfind hnew hsteps
  | case2 p cause hstep => exact h.loop hfind hnew hsteps
  | case3 p q hstep ih => exact ih (hsteps.tail hstep)

end Memo.Reached

namespace Sizing

variable {config : Config} {index : Index} {inner : TypeDef → Sizing Layout} {memo : Memo}
  {t : TypeDef}

theorem keeps_reached_layoutOf (hfind : index.find? t.identity = some t) :
    Keeps (Memo.Reached config index) (layoutOf config index t) := by
  intro memo hmemo
  rw [memo_layoutOf]
  split
  · exact hmemo
  · rename_i hfound
    rw [Memo.isSome_find?] at hfound
    exact hmemo.run hfind hfound .refl

theorem reached_memoAfter {history : List Query} (hstored : ∀ query ∈ history, query.Stored index) :
    (memoAfter config index history []).Reached config index :=
  keeps_memoAfter (fun _ hfind => keeps_reached_layoutOf hfind) hstored .empty

def layoutInTurns (config : Config) (index : Index) (inner : TypeDef → Sizing Layout) (n : Nat)
    (t : TypeDef) (memo : Memo) : Option (Except LayoutError Layout × Memo) :=
  match memo.find? t.identity with
  | some layout => some (.ok layout, memo)
  | none =>
    match ((Progress.start memo t).turns config index inner n).getLast? with
    | some (.ended (.ok ()) found) => some ((remembered t).run found)
    | some (.ended (.error cause) found) => some (.error cause, found)
    | _ => none

theorem layoutInTurns_eq_some (hmemo : memo.Faithful config index)
    (hfind : index.find? t.identity = some t) (hinner : ∀ later, Recalls later inner) {n : Nat}
    (hn : 2 * index.definitions.length ≤ n) :
    layoutInTurns config index inner n t memo = some ((layoutOf config index t).run memo) := by
  rw [layoutInTurns, layoutOf_run]
  cases hfound : memo.find? t.identity with
  | some layout => rfl
  | none =>
    have hnew : t.identity ∉ memo.identities := by simp [← Memo.isSome_find?, hfound]
    have hweight := Progress.weight_start_lt hfind memo
    dsimp only
    rw [(Progress.tidy_start hmemo hfind hnew).getLast?_turns hinner (by omega)]
    cases (Progress.start memo t).run config index with
    | mk outcome found => cases outcome <;> rfl

/-- From every memo that loops for definitions of the index leave behind, the loop for one more ends
within two turns for each definition of the index. At the head of every turn the stack is a path of
distinct definitions from the one that was asked for, each embedded in the one before it; the active
identities are just those on the stack, and none of them is in the memo. An identity is put on the
stack at most once, and laid out at most once. All this holds with every computation `inner` that
gives back what the memo holds, as the loop itself does, and whatever it does elsewhere: `inner` is
only asked for what the memo holds, so no other loop is started, and the turns are the steps that
are taken without it. -/
theorem loop_halts_and_never_nests (config : Config) (index : Index) (memo : Memo)
    (hmemo : memo.Reached config index) (t : TypeDef) (hfind : index.find? t.identity = some t)
    (inner : TypeDef → Sizing Layout) (hinner : ∀ later, Recalls later inner) :
    (∀ n, 2 * index.definitions.length ≤ n →
      layoutInTurns config index inner n t memo = some ((layoutOf config index t).run memo)) ∧
    (t.identity ∉ memo.identities → ∀ n,
      (∀ p ∈ (Progress.start memo t).heads config index inner n,
        p.AtHead index t ∧ p.Prepared config index inner ∧
        ∀ q, (p.turn config index inner).next? = some q ↔ p.step config index = .next q) ∧
      (t.identity :: ((Progress.start memo t).turns config index inner n).filterMap
        Progress.Turn.entered?).Nodup ∧
      (((Progress.start memo t).turns config index inner n).filterMap
        Progress.Turn.laidOut?).Nodup) := by
  have hfaithful := hmemo.faithful
  refine ⟨fun n hn => layoutInTurns_eq_some hfaithful hfind hinner hn, fun hnew n => ?_⟩
  have hstart := Progress.guarded_start hfaithful hfind hnew
  refine ⟨fun p hp => ?_, ?_, ?_⟩
  · have hguarded := hstart.heads hinner n p hp
    exact ⟨hguarded.atHead, hguarded.prepared (hinner p.memo),
      fun q => (hguarded.takes_turn (hinner p.memo)).next?_eq_some_iff⟩
  · obtain ⟨hnodup, hentered⟩ :=
      (Progress.once_entered config index).nodup_turns hinner n hstart.toTidy
    refine List.nodup_cons.mpr ⟨fun hmem => ?_, hnodup⟩
    exact hentered t.identity hmem (.inl List.mem_cons_self)
  · exact ((Progress.once_laidOut config index).nodup_turns hinner n hstart.toTidy).1

/-- After the stray struct has failed and left the pair behind, the loop struct waits for the row,
and is refused when it comes to itself. The loop is asked for the layouts inside. -/
theorem loop_halts_and_never_nests_yard :
    Memo.Reached {} yardIndex [("Pair", ⟨16, 8⟩)] ∧
    yardIndex.find? loopStruct.identity = some loopStruct ∧
    (∀ later, Recalls later (layoutOf {} yardIndex)) ∧
    "Loop" ∉ Memo.identities [("Pair", ⟨16, 8⟩)] ∧
    layoutInTurns {} yardIndex (layoutOf {} yardIndex) 8 loopStruct [("Pair", ⟨16, 8⟩)] =
      some (.error (.containsItself "Loop"), [("Row", ⟨40, 8⟩), ("Pair", ⟨16, 8⟩)]) ∧
    ((Progress.start [("Pair", ⟨16, 8⟩)] loopStruct).heads {} yardIndex (layoutOf {} yardIndex)
      8).map (fun p => (p.stack.map (·.identity), p.active, p.memo.identities)) =
        [(["Loop"], ["Loop"], ["Pair"]), (["Row", "Loop"], ["Row", "Loop"], ["Pair"]),
          (["Loop"], ["Loop"], ["Row", "Pair"])] ∧
    (∀ p ∈ (Progress.start [("Pair", ⟨16, 8⟩)] loopStruct).heads {} yardIndex
      (layoutOf {} yardIndex) 8,
        p.AtHead yardIndex loopStruct ∧ p.Prepared {} yardIndex (layoutOf {} yardIndex) ∧
        ∀ q, (p.turn {} yardIndex (layoutOf {} yardIndex)).next? = some q ↔
          p.step {} yardIndex = .next q) ∧
    ((Progress.start [("Pair", ⟨16, 8⟩)] loopStruct).turns {} yardIndex (layoutOf {} yardIndex)
      8).filterMap Progress.Turn.entered? = ["Row"] ∧
    ["Loop", "Row"].Nodup := by
  have hmemo : memoAfter {} yardIndex [.footprint strayStruct] [] = [("Pair", ⟨16, 8⟩)] := by
    decide +kernel
  have hreached : Memo.Reached {} yardIndex [("Pair", ⟨16, 8⟩)] :=
    hmemo ▸ reached_memoAfter (by decide)
  have hrecalls := recalls_layoutOf {} yardIndex
  have hnew : "Loop" ∉ Memo.identities [("Pair", ⟨16, 8⟩)] := by decide
  have hrun : (layoutOf {} yardIndex loopStruct).run [("Pair", ⟨16, 8⟩)] =
      (.error (.containsItself "Loop"), [("Row", ⟨40, 8⟩), ("Pair", ⟨16, 8⟩)]) :=
    Prod.ext (by decide +kernel) (by decide +kernel)
  have hentered : ((Progress.start [("Pair", ⟨16, 8⟩)] loopStruct).turns {} yardIndex
      (layoutOf {} yardIndex) 8).filterMap Progress.Turn.entered? = ["Row"] := by decide +kernel
  obtain ⟨hhalts, hloop⟩ := loop_halts_and_never_nests {} yardIndex [("Pair", ⟨16, 8⟩)] hreached
    loopStruct rfl (layoutOf {} yardIndex) hrecalls
  obtain ⟨hheads, hnodup, _⟩ := hloop hnew 8
  rw [hentered] at hnodup
  exact ⟨hreached, rfl, hrecalls, hnew, hrun ▸ hhalts 8 (by decide), by decide +kernel, hheads,
    hentered, hnodup⟩

end Sizing

end CopyLint
