import Mathlib.Data.List.Chain
import Mathlib.Data.List.Nodup
import CopyLint.Graph.Search
import CopyLint.Proofs.Embedding

/-! The search for cycles is exact. The definitions that it is done with stand in an order in which
each embeds only earlier ones, so none of them lies on a cycle; what it reports is a closed walk
along its own path. -/
namespace CopyLint

namespace Index

variable {index : Index} {outer inner identity : String}

theorem Embeds.find? (h : index.Embeds outer inner) : ∃ t, index.find? outer = some t := by
  obtain ⟨t, hfind, _⟩ := h
  exact ⟨t, hfind⟩

theorem Reaches.find? (h : index.Reaches outer inner) : ∃ t, index.find? outer = some t := by
  cases h with
  | step hembeds => exact hembeds.find?
  | trans hembeds _ => exact hembeds.find?

theorem not_reaches_of_find?_eq_none (h : index.find? outer = none) :
    ¬index.Reaches outer inner := by
  intro hreaches
  obtain ⟨t, hfind⟩ := hreaches.find?
  cases h.symm.trans hfind

/-- Latest first, each definition embeds only earlier ones and ones that are not there. -/
def Ordered (index : Index) : List String → Prop
  | [] => True
  | identity :: rest =>
    (∀ inner, index.Embeds identity inner → inner ∈ rest ∨ index.find? inner = none) ∧
      index.Ordered rest

theorem ordered_nil (index : Index) : index.Ordered [] :=
  trivial

theorem Ordered.mem_of_embeds {done : List String} (h : index.Ordered done) (hmem : outer ∈ done)
    (hembeds : index.Embeds outer inner) : inner ∈ done ∨ index.find? inner = none := by
  induction done with
  | nil => cases hmem
  | cons first rest ih =>
    have hrest : inner ∈ rest ∨ index.find? inner = none := by
      rcases List.mem_cons.mp hmem with rfl | hmem
      · exact h.1 inner hembeds
      · exact ih h.2 hmem
    exact hrest.imp_left (List.mem_cons_of_mem first)

theorem Ordered.mem_of_reaches {done : List String} (h : index.Ordered done) (hmem : outer ∈ done)
    (hreaches : index.Reaches outer inner) : inner ∈ done ∨ index.find? inner = none := by
  induction hreaches with
  | step hembeds => exact h.mem_of_embeds hmem hembeds
  | trans hembeds hreaches ih =>
    rcases h.mem_of_embeds hmem hembeds with hmiddle | habsent
    · exact ih hmiddle
    · exact absurd hreaches (not_reaches_of_find?_eq_none habsent)

theorem Ordered.not_reaches_self {done : List String} (h : index.Ordered done)
    (hmem : identity ∈ done) : ¬index.Reaches identity identity := by
  induction done with
  | nil => cases hmem
  | cons first rest ih =>
    by_cases hrest : identity ∈ rest
    · exact ih h.2 hrest
    · intro hcycle
      obtain rfl : identity = first := (List.mem_cons.mp hmem).resolve_right hrest
      obtain ⟨t, hfind⟩ := hcycle.find?
      have hback : identity ∈ rest ∨ index.find? identity = none := by
        cases hcycle with
        | step hembeds => exact h.1 identity hembeds
        | trans hembeds hreaches =>
          rcases h.1 _ hembeds with hmiddle | habsent
          · exact h.2.mem_of_reaches hmiddle hreaches
          · exact absurd hreaches (not_reaches_of_find?_eq_none habsent)
      rcases hback with hback | habsent
      · exact hrest hback
      · cases hfind.symm.trans habsent

/-- A closed walk that passes every definition on it once. -/
def IsCycle (index : Index) (identities : List String) : Prop :=
  identities.IsChain index.Embeds ∧
    ∃ start middle, identities = start :: middle ++ [start] ∧ (start :: middle).Nodup

theorem reaches_of_isChain {middle : List String} {start last : String}
    (h : (start :: middle ++ [last]).IsChain index.Embeds) : index.Reaches start last := by
  induction middle generalizing start with
  | nil => exact .step (List.isChain_cons_cons.mp h).1
  | cons next rest ih =>
    obtain ⟨hembeds, hrest⟩ := List.isChain_cons_cons.mp h
    exact .trans hembeds (ih hrest)

theorem IsCycle.exists_reaches_self {identities : List String} (h : index.IsCycle identities) :
    ∃ identity, index.Reaches identity identity := by
  obtain ⟨hchain, start, middle, rfl, _⟩ := h
  exact ⟨start, reaches_of_isChain hchain⟩

end Index

namespace Search

variable {index : Index} {s next : Search}

theorem run_eq (index : Index) (s : Search) :
    s.run index =
      match s.step index with
      | .finished => .ok s.done
      | .cycle identities => .error identities
      | .next next => next.run index := by
  rw [run]
  split <;> rename_i hstep <;> rw [hstep]

theorem run_congr {index' : Index} (hstep : ∀ s : Search, s.step index' = s.step index)
    (s : Search) : s.run index' = s.run index := by
  fun_induction run index s with
  | case1 s hfinished => rw [run_eq, hstep, hfinished]
  | case2 s identities hcycle => rw [run_eq, hstep, hcycle]
  | case3 s next hnext ih =>
    rw [run_eq, hstep, hnext]
    exact ih

/-- Of each definition on the path, all that it embeds has been looked at, up to what is left: it is
done with, or it is not there, or it is the next one on the path. -/
def Waits (index : Index) (done : List String) :
    Option String → List (String × List String) → Prop
  | _, [] => True
  | above, (identity, rest) :: below =>
    (∃ t seen, index.find? identity = some t ∧ t.embeds = seen ++ rest ∧
      ∀ inner ∈ seen, inner ∈ done ∨ index.find? inner = none ∨ above = some inner) ∧
    Waits index done (some identity) below

/-- What holds whenever the search looks at its path. -/
structure Sound (index : Index) (s : Search) : Prop where
  ordered : index.Ordered s.done
  nodup : s.identities.Nodup
  chain : s.identities.IsChain fun upper lower => index.Embeds lower upper
  waits : Waits index s.done none s.path

theorem Waits.mono {done more : List String} (hmore : ∀ i ∈ done, i ∈ more)
    {path : List (String × List String)} {above : Option String}
    (h : Waits index done above path) : Waits index more above path := by
  induction path generalizing above with
  | nil => trivial
  | cons entry below ih =>
    obtain ⟨⟨t, seen, hfind, hembeds, hseen⟩, hbelow⟩ := h
    refine ⟨⟨t, seen, hfind, hembeds, fun inner hmem => ?_⟩, ih hbelow⟩
    exact (hseen inner hmem).imp_left (hmore inner)

theorem Waits.pop {done : List String} {identity : String} {path : List (String × List String)}
    (h : Waits index done (some identity) path) : Waits index (identity :: done) none path := by
  cases path with
  | nil => trivial
  | cons entry below =>
    obtain ⟨⟨t, seen, hfind, hembeds, hseen⟩, hbelow⟩ := h
    refine ⟨⟨t, seen, hfind, hembeds, fun inner hmem => ?_⟩,
      hbelow.mono fun i => List.mem_cons_of_mem identity⟩
    rcases hseen inner hmem with hdone | habsent | hnext
    · exact .inl (List.mem_cons_of_mem identity hdone)
    · exact .inr (.inl habsent)
    · cases hnext
      exact .inl List.mem_cons_self

theorem Waits.advance {done rest : List String} {identity target : String} {above : Option String}
    {below : List (String × List String)}
    (h : Waits index done none ((identity, target :: rest) :: below))
    (htarget : target ∈ done ∨ index.find? target = none ∨ above = some target) :
    Waits index done above ((identity, rest) :: below) := by
  obtain ⟨⟨t, seen, hfind, hembeds, hseen⟩, hbelow⟩ := h
  refine ⟨⟨t, seen ++ [target], hfind, by simp [hembeds], fun inner hmem => ?_⟩, hbelow⟩
  rcases List.mem_append.mp hmem with hmem | hmem
  · rcases hseen inner hmem with hdone | habsent | hnext
    · exact .inl hdone
    · exact .inr (.inl habsent)
    · cases hnext
  · cases List.mem_singleton.mp hmem
    exact htarget

theorem sound_start {done : List String} {t : TypeDef} (hordered : index.Ordered done)
    (hfind : index.find? t.identity = some t) : (start done t).Sound index where
  ordered := hordered
  nodup := List.nodup_singleton _
  chain := List.isChain_singleton _
  waits := ⟨⟨t, [], hfind, rfl, nofun⟩, trivial⟩

theorem path_of_step_finished (h : s.step index = .finished) : s.path = [] := by
  unfold step at h
  split at h
  · assumption
  · cases h
  · repeat' split at h
    all_goals cases h

theorem step_cycle {cycle : List String} (h : s.step index = .cycle cycle) :
    ∃ identity target rest below, s.path = (identity, target :: rest) :: below ∧
      target ∈ s.identities ∧ cycle = s.cycleAt target := by
  unfold step at h
  split at h
  · cases h
  · cases h
  · rename_i identity target rest below hpath
    split at h
    · rename_i hmem
      cases h
      exact ⟨identity, target, rest, below, hpath, hmem, rfl⟩
    · repeat' split at h
      all_goals cases h

theorem step_next (h : s.step index = .next next) :
    (∃ identity below, s.path = (identity, []) :: below ∧ next = ⟨below, identity :: s.done⟩) ∨
    ∃ identity target rest below, s.path = (identity, target :: rest) :: below ∧
      ((target ∈ s.done ∨ index.find? target = none) ∧
          next = ⟨(identity, rest) :: below, s.done⟩ ∨
        ∃ t, index.find? target = some t ∧ target ∉ s.identities ∧
          next = ⟨(target, t.embeds) :: (identity, rest) :: below, s.done⟩) := by
  unfold step at h
  split at h
  · cases h
  · rename_i identity below hpath
    cases h
    exact .inl ⟨identity, below, hpath, rfl⟩
  · rename_i identity target rest below hpath
    refine .inr ⟨identity, target, rest, below, hpath, ?_⟩
    split at h
    · cases h
    · rename_i hnew
      split at h
      · rename_i hdone
        cases h
        exact .inl ⟨.inl hdone, rfl⟩
      · split at h
        · rename_i t hfind
          cases h
          exact .inr ⟨t, hfind, hnew, rfl⟩
        · rename_i hfind
          cases h
          exact .inl ⟨.inr hfind, rfl⟩

theorem Sound.embeds_target (hsound : s.Sound index) {identity target : String}
    {rest : List String} {below : List (String × List String)}
    (hpath : s.path = (identity, target :: rest) :: below) : index.Embeds identity target := by
  have hwaits := hsound.waits
  rw [hpath] at hwaits
  obtain ⟨⟨t, seen, hfind, hembeds, _⟩, _⟩ := hwaits
  exact ⟨t, hfind, by simp [hembeds]⟩

theorem Sound.step (hsound : s.Sound index) (h : s.step index = .next next) :
    next.Sound index := by
  obtain ⟨hordered, hnodup, hchain, hwaits⟩ := hsound
  rcases step_next h with ⟨identity, below, hpath, rfl⟩ |
    ⟨identity, target, rest, below, hpath, ⟨htarget, rfl⟩ | ⟨t, hfind, hnew, rfl⟩⟩
  · unfold identities at hnodup hchain
    rw [hpath] at hnodup hchain hwaits
    rw [List.map_cons] at hnodup hchain
    obtain ⟨⟨t, seen, hfind, hembeds, hseen⟩, hbelow⟩ := hwaits
    refine ⟨⟨?_, hordered⟩, (List.nodup_cons.mp hnodup).2, hchain.tail, hbelow.pop⟩
    rintro inner ⟨t', hfind', hinner⟩
    cases hfind.symm.trans hfind'
    rw [hembeds, List.append_nil] at hinner
    rcases hseen inner hinner with hdone | habsent | hnext
    · exact .inl hdone
    · exact .inr habsent
    · cases hnext
  · unfold identities at hnodup hchain
    rw [hpath] at hnodup hchain hwaits
    exact ⟨hordered, hnodup, hchain, hwaits.advance (htarget.imp_right .inl)⟩
  · have hembeds := Sound.embeds_target ⟨hordered, hnodup, hchain, hwaits⟩ hpath
    unfold identities at hnodup hchain hnew
    rw [hpath] at hnodup hchain hwaits hnew
    refine ⟨hordered, List.nodup_cons.mpr ⟨hnew, hnodup⟩,
      List.isChain_cons_cons.mpr ⟨hembeds, hchain⟩, ?_, hwaits.advance (.inr (.inr rfl))⟩
    exact ⟨t, [], hfind, rfl, nofun⟩

theorem met_of_step (h : s.step index = .next next) {identity : String}
    (hmet : identity ∈ s.done ∨ identity ∈ s.identities) :
    identity ∈ next.done ∨ identity ∈ next.identities := by
  unfold identities at hmet ⊢
  rcases step_next h with ⟨first, below, hpath, rfl⟩ |
    ⟨first, target, rest, below, hpath, ⟨_, rfl⟩ | ⟨t, _, _, rfl⟩⟩
  · simp only [hpath, List.map_cons, List.mem_cons] at hmet ⊢
    tauto
  · simpa [hpath] using hmet
  · simp only [hpath, List.map_cons, List.mem_cons] at hmet ⊢
    tauto

theorem Sound.run_ok (hsound : s.Sound index) {done : List String} (h : s.run index = .ok done) :
    index.Ordered done ∧ ∀ identity, identity ∈ s.done ∨ identity ∈ s.identities →
      identity ∈ done := by
  fun_induction run index s with
  | case1 s hstep =>
    cases h
    refine ⟨hsound.ordered, fun identity hmet => ?_⟩
    rw [identities, path_of_step_finished hstep] at hmet
    exact hmet.resolve_right List.not_mem_nil
  | case2 s cycle hstep => cases h
  | case3 s next hstep ih =>
    obtain ⟨hordered, hmet⟩ := ih (hsound.step hstep) h
    exact ⟨hordered, fun identity hearlier => hmet identity (met_of_step hstep hearlier)⟩

/-- The reported cycle is the path from the target upwards, and the target once more. -/
theorem exists_cycleAt_eq {target : String} (htarget : target ∈ s.identities) :
    ∃ before after, s.identities = before ++ target :: after ∧ target ∉ before ∧
      s.cycleAt target = target :: before.reverse ++ [target] := by
  obtain ⟨before, after, hsplit, hbefore⟩ := List.eq_append_cons_of_mem htarget
  refine ⟨before, after, hsplit, hbefore, ?_⟩
  unfold cycleAt
  rw [hsplit, List.takeWhile_append_of_pos (by grind), List.takeWhile_cons_of_neg (by simp),
    List.append_nil]

theorem Sound.isCycle_cycleAt (hsound : s.Sound index) {identity target : String}
    {rest : List String} {below : List (String × List String)}
    (hpath : s.path = (identity, target :: rest) :: below) (htarget : target ∈ s.identities) :
    index.IsCycle (s.cycleAt target) := by
  have hembeds := hsound.embeds_target hpath
  have hnodup := hsound.nodup
  have hchain := hsound.chain
  have hhead : s.identities.head? = some identity := by rw [identities, hpath]; rfl
  obtain ⟨before, after, hsplit, hbefore, hcycle⟩ := exists_cycleAt_eq htarget
  rw [hsplit] at hnodup hchain hhead
  rw [hcycle]
  refine ⟨?_, target, before.reverse, rfl, ?_⟩
  · have hback : (target :: before.reverse).IsChain index.Embeds := by
      rw [← List.reverse_concat, List.isChain_reverse]
      rw [← List.singleton_append, ← List.append_assoc] at hchain
      exact hchain.left_of_append
    refine List.isChain_append.mpr ⟨hback, List.isChain_singleton target, ?_⟩
    intro last hlast first hfirst
    cases hfirst
    have hlast' : (before ++ [target]).head? = some last := by
      rw [← List.reverse_concat, List.getLast?_reverse] at hlast
      exact hlast
    have hidentity : last = identity := by
      cases before with
      | nil => simp_all
      | cons b bs => simp_all
    rw [hidentity]
    exact hembeds
  · rw [List.nodup_cons, List.mem_reverse, List.nodup_reverse]
    exact ⟨hbefore, hnodup.of_append_left⟩

theorem Sound.run_error (hsound : s.Sound index) {cycle : List String}
    (h : s.run index = .error cycle) : index.IsCycle cycle := by
  fun_induction run index s with
  | case1 s hstep => cases h
  | case2 s cycle hstep =>
    cases h
    obtain ⟨identity, target, rest, below, hpath, htarget, rfl⟩ := step_cycle hstep
    exact hsound.isCycle_cycleAt hpath htarget
  | case3 s next hstep ih => exact ih (hsound.step hstep) h

end Search

namespace Index

variable {index : Index}

theorem cycleFrom_eq_none {done starts : List String} (hordered : index.Ordered done)
    (h : index.cycleFrom done starts = none) :
    ∀ identity ∈ starts, ¬index.Reaches identity identity := by
  induction starts generalizing done with
  | nil => nofun
  | cons identity rest ih =>
    rw [List.forall_mem_cons]
    rw [cycleFrom] at h
    cases hfind : index.find? identity with
    | none =>
      rw [hfind] at h
      exact ⟨not_reaches_of_find?_eq_none hfind, ih hordered h⟩
    | some t =>
      rw [hfind] at h
      dsimp only at h
      split at h
      · rename_i hdone
        exact ⟨hordered.not_reaches_self hdone, ih hordered h⟩
      · split at h
        · rename_i later hrun
          have hidentity := identity_of_find? hfind
          subst hidentity
          obtain ⟨hlater, hmet⟩ := (Search.sound_start hordered hfind).run_ok hrun
          have hmem : t.identity ∈ later := hmet t.identity (.inr (by simp [Search.identities,
            Search.start]))
          exact ⟨hlater.not_reaches_self hmem, ih hlater h⟩
        · cases h

theorem cycleFrom_eq_some {done starts cycle : List String} (hordered : index.Ordered done)
    (h : index.cycleFrom done starts = some cycle) : index.IsCycle cycle := by
  induction starts generalizing done with
  | nil => cases h
  | cons identity rest ih =>
    rw [cycleFrom] at h
    cases hfind : index.find? identity with
    | none =>
      rw [hfind] at h
      exact ih hordered h
    | some t =>
      rw [hfind] at h
      dsimp only at h
      split at h
      · exact ih hordered h
      · have hidentity := identity_of_find? hfind
        subst hidentity
        split at h
        · rename_i later hrun
          exact ih ((Search.sound_start hordered hfind).run_ok hrun).1 h
        · rename_i found hrun
          cases h
          exact (Search.sound_start hordered hfind).run_error hrun

theorem cycle?_eq_some {cycle : List String} (h : index.cycle? = some cycle) :
    index.IsCycle cycle :=
  cycleFrom_eq_some index.ordered_nil h

/-- The search finds a cycle whenever there is one. -/
theorem cycle?_eq_none_iff :
    index.cycle? = none ↔ ∀ identity, ¬index.Reaches identity identity := by
  constructor
  · intro h identity hcycle
    obtain ⟨t, hfind⟩ := hcycle.find?
    refine cycleFrom_eq_none index.ordered_nil h identity ?_ hcycle
    rw [List.mem_mergeSort]
    exact mem_identities_of_find? hfind
  · intro h
    cases hfound : index.cycle? with
    | none => rfl
    | some cycle =>
      obtain ⟨identity, hcycle⟩ := (cycle?_eq_some hfound).exists_reaches_self
      exact absurd hcycle (h identity)

end Index

end CopyLint
