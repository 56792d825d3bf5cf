import CopyLint.FilterCount
import CopyLint.Layout.Sizing

/-! Layouts on demand. A definition is laid out once every definition that it embeds has been. Those
that wait are kept on a stack, so no chain of definitions is too long; each step either lays out the
top of the stack or puts a definition there that was neither laid out nor waiting. -/
namespace CopyLint

structure Progress where
  stack : List TypeDef
  active : List String
  memo : Memo

namespace Progress

inductive Step where
  | finished
  | next (p : Progress)
  | failed (cause : LayoutError)

def start (memo : Memo) (t : TypeDef) : Progress :=
  ⟨[t], [t.identity], memo⟩

def push (p : Progress) (t : TypeDef) : Progress :=
  ⟨t :: p.stack, t.identity :: p.active, p.memo⟩

def settle (p : Progress) (top : TypeDef) (below : List TypeDef) (layout : Layout) : Progress :=
  ⟨below, p.active.filter (· ≠ top.identity), p.memo.insert top.identity layout⟩

def step (config : Config) (index : Index) (p : Progress) : Step :=
  match p.stack with
  | [] => .finished
  | top :: below =>
    match Sizing.pending index p.memo top.fields with
    | .error cause => .failed cause
    | .ok (some t) =>
      if t.identity ∈ p.active then .failed (.containsItself t.name) else .next (p.push t)
    | .ok none =>
      match (Sizing.fieldLayout config index Sizing.remembered top).run p.memo with
      | (.ok layout, _) => .next (p.settle top below layout)
      | (.error cause, _) => .failed cause

def fresh (index : Index) (p : Progress) : List String :=
  index.identities.filter fun i => i ∉ p.memo.identities ∧ i ∉ p.active

def weight (index : Index) (p : Progress) : Nat :=
  2 * (p.fresh index).length + p.stack.length

theorem pending_eq_some {index : Index} {memo : Memo} {t : TypeDef} :
    ∀ fields : List Field, Sizing.pending index memo fields = .ok (some t) →
      t.identity ∈ index.identities ∧ t.identity ∉ memo.identities
  | [], h => by simp [Sizing.pending, pure, Except.pure] at h
  | field :: rest, h => by
    rw [Sizing.pending] at h
    split at h
    · rename_i identity name _
      split at h
      · exact pending_eq_some rest h
      · rename_i hmemo
        cases hfind : index.find? identity with
        | none => simp [Index.require, hfind, bind, Except.bind, throw, throwThe,
            MonadExceptOf.throw] at h
        | some found =>
          simp [Index.require, hfind, bind, Except.bind, pure, Except.pure] at h
          subst h
          rw [Index.identity_of_find? hfind]
          exact ⟨Index.mem_identities_of_find? hfind, fun hmem =>
            hmemo ((memo.isSome_find? identity).mpr hmem)⟩
    · exact pending_eq_some rest h

theorem weight_push {index : Index} {p : Progress} {t : TypeDef}
    (hindex : t.identity ∈ index.identities) (hmemo : t.identity ∉ p.memo.identities)
    (hactive : t.identity ∉ p.active) : (p.push t).weight index < p.weight index := by
  have hlt : ((p.push t).fresh index).length < (p.fresh index).length := by
    unfold fresh
    refine length_filter_lt_of_imp (a := t.identity) ?_ ?_ hindex ?_
    · simp [hmemo, hactive]
    · simp [push]
    · intro i _ hi
      simp only [push, List.mem_cons, not_or, decide_eq_true_eq] at hi ⊢
      exact ⟨hi.1, hi.2.2⟩
  unfold weight
  simp only [push, List.length_cons] at *
  omega

theorem weight_settle {index : Index} {p : Progress} {top : TypeDef} {below : List TypeDef}
    (layout : Layout) (hstack : p.stack = top :: below) :
    (p.settle top below layout).weight index < p.weight index := by
  have hle : ((p.settle top below layout).fresh index).length ≤ (p.fresh index).length := by
    unfold fresh
    refine length_filter_le_of_imp ?_
    intro i _ hi
    simp only [settle, Memo.identities, Memo.insert, List.map_cons, List.mem_cons, not_or,
      List.mem_filter, decide_eq_true_eq] at hi ⊢
    exact decide_eq_true ⟨hi.1.2, fun hmem => hi.2 ⟨hmem, hi.1.1⟩⟩
  unfold weight
  rw [hstack]
  simp only [settle, List.length_cons] at *
  omega

theorem weight_step {config : Config} {index : Index} {p q : Progress}
    (h : p.step config index = .next q) : q.weight index < p.weight index := by
  unfold step at h
  split at h
  · simp at h
  · rename_i top below hstack
    split at h
    · simp at h
    · rename_i t hpending
      obtain ⟨hindex, hmemo⟩ := pending_eq_some _ hpending
      split at h
      · simp at h
      · rename_i hactive
        cases h
        exact weight_push hindex hmemo hactive
    · split at h
      · cases h
        exact weight_settle _ hstack
      · simp at h

/-- Steps until the stack is empty or a step fails. The layouts found on the way are kept. -/
def run (config : Config) (index : Index) (p : Progress) : Except LayoutError Unit × Memo :=
  match _ : p.step config index with
  | .finished => (.ok (), p.memo)
  | .failed cause => (.error cause, p.memo)
  | .next q => run config index q
termination_by p.weight index
decreasing_by exact weight_step ‹_›

end Progress

namespace Sizing

variable (config : Config) (index : Index)

def layoutOf (t : TypeDef) : Sizing Layout := do
  let memo ← get
  match memo.find? t.identity with
  | some layout => pure layout
  | none =>
    let (outcome, found) := (Progress.start memo t).run config index
    set found
    match outcome with
    | .ok () => remembered t
    | .error cause => throw cause

def sizeof (ref : TypeRef) : Sizing Int :=
  sizeWith config index (layoutOf config index) ref

def alignof (ref : TypeRef) : Sizing Int :=
  alignWith config index (layoutOf config index) ref

def footprint (t : TypeDef) : Sizing Int := do
  let layout ← layoutOf config index t
  pure layout.size

end Sizing

def footprint (config : Config) (others : List TypeDef) (t : TypeDef) : Except LayoutError Int :=
  let index := (Index.ofList others).insertIfNew t
  ((Sizing.footprint config index t).run []).1

end CopyLint
