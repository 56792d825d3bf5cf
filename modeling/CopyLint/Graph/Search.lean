import CopyLint.FilterCount
import CopyLint.Graph.Embedding

/-! Search for a definition that embeds itself. The search keeps the path from its start to where it
stands, so that a definition met again on the path closes a cycle. -/
namespace CopyLint

structure Search where
  /-- The path, latest first, each definition with the embedded ones still to look at. -/
  path : List (String × List String)
  /-- Definitions from which no cycle can be reached. -/
  done : List String

namespace Search

inductive Step where
  | finished
  | next (s : Search)
  | cycle (identities : List String)

def start (done : List String) (t : TypeDef) : Search :=
  ⟨[(t.identity, t.embeds)], done⟩

def identities (s : Search) : List String :=
  s.path.map (·.1)

/-- The path from the latest occurrence of `target` on, and `target` again. -/
def cycleAt (s : Search) (target : String) : List String :=
  target :: (s.identities.takeWhile (· ≠ target)).reverse ++ [target]

def step (index : Index) (s : Search) : Step :=
  match s.path with
  | [] => .finished
  | (identity, []) :: below => .next ⟨below, identity :: s.done⟩
  | (identity, target :: rest) :: below =>
    if target ∈ s.identities then .cycle (s.cycleAt target)
    else if target ∈ s.done then .next ⟨(identity, rest) :: below, s.done⟩
    else
      match index.find? target with
      | some t => .next ⟨(target, t.embeds) :: (identity, rest) :: below, s.done⟩
      | none => .next ⟨(identity, rest) :: below, s.done⟩

def unmet (index : Index) (s : Search) : List String :=
  index.identities.filter fun i => i ∉ s.done ∧ i ∉ s.identities

def work (s : Search) : Nat :=
  s.path.foldr (fun (_, targets) rest => targets.length + 1 + rest) 0

theorem unmet_step_le {index : Index} {s : Search} {path : List (String × List String)}
    {done : List String} (h : ∀ i, i ∈ s.done ∨ i ∈ s.identities →
      i ∈ done ∨ i ∈ path.map (·.1)) :
    (unmet index ⟨path, done⟩).length ≤ (s.unmet index).length := by
  unfold unmet
  refine length_filter_le_of_imp fun i _ hi => ?_
  have hi := of_decide_eq_true hi
  refine decide_eq_true ⟨fun hdone => ?_, fun hpath => ?_⟩
  · exact (h i (.inl hdone)).elim hi.1 hi.2
  · exact (h i (.inr hpath)).elim hi.1 hi.2

theorem unmet_push_lt {index : Index} {s : Search} {path : List (String × List String)}
    {target : String} (targets : List String) (hindex : target ∈ index.identities)
    (hdone : target ∉ s.done) (hpath : target ∉ s.identities)
    (h : ∀ i, i ∈ s.identities → i ∈ path.map (·.1)) :
    (unmet index ⟨(target, targets) :: path, s.done⟩).length < (s.unmet index).length := by
  unfold unmet
  refine length_filter_lt_of_imp (a := target) ?_ ?_ hindex fun i _ hi => ?_
  · simp [hdone, hpath]
  · simp [identities]
  · simp only [identities, List.map_cons, List.mem_cons, not_or, decide_eq_true_eq] at hi ⊢
    exact decide_eq_true ⟨hi.1, fun hmem => hi.2.2 (h i hmem)⟩

theorem lex_step {index : Index} {s next : Search} (h : s.step index = .next next) :
    Prod.Lex (· < ·) (· < ·) ((next.unmet index).length, next.work)
      ((s.unmet index).length, s.work) := by
  unfold step at h
  split at h
  · simp at h
  · rename_i identity below hpath
    cases h
    refine Prod.Lex.right' _ (unmet_step_le ?_) ?_
    · intro i hi
      simp only [identities, hpath, List.map_cons, List.mem_cons] at hi ⊢
      rcases hi with hdone | rfl | hbelow
      · exact .inl (.inr hdone)
      · exact .inl (.inl rfl)
      · exact .inr hbelow
    · simp [work, hpath]
  · rename_i identity target rest below hpath
    have hshorter : ∀ i, i ∈ s.done ∨ i ∈ s.identities →
        i ∈ s.done ∨ i ∈ ((identity, rest) :: below).map (·.1) := by
      intro i hi
      simpa [identities, hpath] using hi
    have hwork : work ⟨(identity, rest) :: below, s.done⟩ < s.work := by
      simp [work, hpath]
    split at h
    · simp at h
    · rename_i hnew
      split at h
      · cases h
        exact Prod.Lex.right' _ (unmet_step_le hshorter) hwork
      · rename_i hdone
        split at h
        · rename_i t hfind
          cases h
          refine Prod.Lex.left _ _ (unmet_push_lt _ (Index.mem_identities_of_find? hfind) hdone
            hnew ?_)
          intro i hi
          simpa [identities, hpath] using hi
        · cases h
          exact Prod.Lex.right' _ (unmet_step_le hshorter) hwork

def run (index : Index) (s : Search) : Except (List String) (List String) :=
  match _ : s.step index with
  | .finished => .ok s.done
  | .cycle identities => .error identities
  | .next next => run index next
termination_by ((s.unmet index).length, s.work)
decreasing_by exact lex_step ‹_›

end Search

namespace Index

def cycleFrom (index : Index) (done : List String) : List String → Option (List String)
  | [] => none
  | identity :: rest =>
    match index.find? identity with
    | some t =>
      if identity ∈ done then cycleFrom index done rest
      else
        match (Search.start done t).run index with
        | .ok done => cycleFrom index done rest
        | .error cycle => some cycle
    | none => cycleFrom index done rest

def cycle? (index : Index) : Option (List String) :=
  index.cycleFrom [] (index.identities.mergeSort (· ≤ ·))

end Index

end CopyLint
