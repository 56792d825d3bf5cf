import CopyLint.Proofs.Queries

/-! Memos after any questions, also about definitions that are not in the index. A layout in such a
memo need not be the one of the definition that the index holds, but it is always made of what the
memo holds for the fields of some definition, and it stays. -/
namespace CopyLint

namespace Memo

/-- The later memo holds all that the earlier one holds. -/
def Extends (memo later : Memo) : Prop :=
  ∀ identity layout, memo.find? identity = some layout → later.find? identity = some layout

/-- The layout that a reference gets from the memo. A definition that the index does not hold cannot
be referred to. -/
def layoutIn (index : Index) (memo : Memo) (identity : String) : Option Layout :=
  if (index.find? identity).isSome then memo.find? identity else none

/-- Each layout in the memo is the one of the definition that `maker` names, as the memo sees its
fields. -/
def Made (config : Config) (index : Index) (maker : String → Option TypeDef) (memo : Memo) : Prop :=
  ∀ identity layout, memo.find? identity = some layout →
    layout.Aligned config ∧ ∃ t fields, maker identity = some t ∧
      t.fields.mapM (fun field => field.type.layout? config (memo.layoutIn index)) = some fields ∧
        Layout.ofFields fields = layout

variable {config : Config} {index : Index} {memo later : Memo} {maker : String → Option TypeDef}

theorem Extends.refl (memo : Memo) : memo.Extends memo :=
  fun _ _ h => h

theorem Extends.trans {last : Memo} (h : memo.Extends later) (h' : later.Extends last) :
    memo.Extends last :=
  fun identity layout hfound => h' identity layout (h identity layout hfound)

theorem Extends.isSome_find? (h : memo.Extends later) {identity : String}
    (hfound : (memo.find? identity).isSome) : (later.find? identity).isSome := by
  obtain ⟨layout, hlayout⟩ := Option.isSome_iff_exists.mp hfound
  exact Option.isSome_of_eq_some (h identity layout hlayout)

theorem Extends.not_mem (h : memo.Extends later) {identity : String}
    (hnew : identity ∉ later.identities) : identity ∉ memo.identities := by
  rw [← Memo.isSome_find?] at hnew ⊢
  exact fun hfound => hnew (h.isSome_find? hfound)

theorem find?_eq_none_of_not_mem {identity : String} (h : identity ∉ memo.identities) :
    memo.find? identity = none := by
  simpa [← isSome_find?] using h

theorem extends_insert {identity : String} (h : identity ∉ memo.identities) (layout : Layout) :
    memo.Extends (memo.insert identity layout) := by
  intro other found hfound
  have hne : other ≠ identity := by
    rintro rfl
    simp [find?_eq_none_of_not_mem h] at hfound
  rw [find?_insert_of_ne memo layout hne]
  exact hfound

theorem Extends.layoutIn (h : memo.Extends later) {identity : String} {layout : Layout}
    (hlayout : memo.layoutIn index identity = some layout) :
    later.layoutIn index identity = some layout := by
  unfold Memo.layoutIn at *
  split at hlayout
  · rename_i hfind
    rw [if_pos hfind]
    exact h identity layout hlayout
  · cases hlayout

theorem Extends.mapM_layout? (h : memo.Extends later) {fields : List Field} {layouts : List Layout}
    (hlayouts : fields.mapM (fun field => field.type.layout? config (memo.layoutIn index)) =
      some layouts) :
    fields.mapM (fun field => field.type.layout? config (later.layoutIn index)) = some layouts :=
  mapM_mono (fun field => field.type.layout?_mono fun _ _ => h.layoutIn) _ _ hlayouts

theorem made_nil (config : Config) (index : Index) (maker : String → Option TypeDef) :
    Memo.Made config index maker [] :=
  nofun

theorem Made.aligned (h : memo.Made config index maker) {identity : String} {layout : Layout}
    (hfound : memo.find? identity = some layout) : layout.Aligned config :=
  (h identity layout hfound).1

theorem Made.congr {maker' : String → Option TypeDef} (h : memo.Made config index maker)
    (hmaker : ∀ identity, (memo.find? identity).isSome → maker' identity = maker identity) :
    memo.Made config index maker' := by
  intro identity layout hfound
  rw [hmaker identity (Option.isSome_of_eq_some hfound)]
  exact h identity layout hfound

theorem Made.insert (h : memo.Made config index maker) {t : TypeDef} {fields : List Layout}
    (hnew : t.identity ∉ memo.identities) (hmaker : maker t.identity = some t)
    (hfields : t.fields.mapM (fun field => field.type.layout? config (memo.layoutIn index)) =
      some fields)
    (haligned : (Layout.ofFields fields).Aligned config) :
    (memo.insert t.identity (Layout.ofFields fields)).Made config index maker := by
  have hextends := extends_insert hnew (Layout.ofFields fields)
  intro identity layout hfound
  by_cases hidentity : identity = t.identity
  · subst hidentity
    rw [find?_insert_self] at hfound
    cases hfound
    exact ⟨haligned, t, fields, hmaker, hextends.mapM_layout? hfields, rfl⟩
  · rw [find?_insert_of_ne memo _ hidentity] at hfound
    obtain ⟨hlayout, u, layouts, hu, hlayouts, heq⟩ := h identity layout hfound
    exact ⟨hlayout, u, layouts, hu, hextends.mapM_layout? hlayouts, heq⟩

end Memo

/-! The layout rules on a memo of this kind, with any computation that answers from the memo. -/

namespace Sizing

variable {config : Config} {index : Index} {memo : Memo} {maker : String → Option TypeDef}

theorem recalls_layoutOf (config : Config) (index : Index) (memo : Memo) :
    Recalls memo (layoutOf config index) := by
  intro t layout hfound
  rw [layoutOf_run, hfound]

section

variable {layoutOf : TypeDef → Sizing Layout}

theorem answers_of_layoutIn (hmade : memo.Made config index maker)
    (hrecalls : Recalls memo layoutOf)
    {reference : String × String} (h : (memo.layoutIn index reference.1).isSome) :
    index.Answers config (· = memo) layoutOf (memo.layoutIn index) reference := by
  obtain ⟨layout, hlayout⟩ := Option.isSome_iff_exists.mp h
  have hfound := hlayout
  unfold Memo.layoutIn at hfound
  split at hfound
  · rename_i hfind
    obtain ⟨t, ht⟩ := Option.isSome_iff_exists.mp hfind
    refine ⟨t, layout, ht, hlayout, hmade.aligned hfound, ?_⟩
    rintro _ rfl
    rw [← Index.identity_of_find? ht] at hfound
    rw [hrecalls t layout hfound]
    exact ⟨rfl, rfl⟩
  · cases hfound

theorem answers_of_layout? (hmade : memo.Made config index maker) (hrecalls : Recalls memo layoutOf)
    {ref : TypeRef} (h : (ref.layout? config (memo.layoutIn index)).isSome) :
    ∀ reference, ref.embedded = some reference →
      index.Answers config (· = memo) layoutOf (memo.layoutIn index) reference :=
  fun reference hreference =>
    answers_of_layoutIn hmade hrecalls
      (((TypeRef.isSome_layout?_iff ref).mp h).2 reference hreference)

theorem answers_of_mapM_layout? (hmade : memo.Made config index maker)
    (hrecalls : Recalls memo layoutOf) {fields : List Field}
    (h : (fields.mapM fun (field : Field) =>
      field.type.layout? config (memo.layoutIn index)).isSome) :
    ∀ reference ∈ references fields,
      index.Answers config (· = memo) layoutOf (memo.layoutIn index) reference := by
  intro reference hmem
  obtain ⟨field, hfield, hreference⟩ := mem_references.mp hmem
  exact answers_of_layout? hmade hrecalls (isSome_mapM_iff.mp h field hfield) reference hreference

end

theorem alignWith_remembered_fails {ref : TypeRef}
    (h : ref.layout? config (memo.layoutIn index) = none) :
    ∃ cause, Yields (· = memo) (alignWith config index remembered ref) (.error cause) := by
  induction ref with
  | scalar | pointer | rawPointer => cases h
  | named identity name =>
    change memo.layoutIn index identity = none at h
    unfold Memo.layoutIn at h
    cases hfind : index.find? identity with
    | none =>
      rw [alignWith, Index.require_of_find?_eq_none hfind]
      exact ⟨_, (yields_lift _).bind_error _⟩
    | some t =>
      simp only [hfind, Option.isSome_some, if_true] at h
      rw [← Index.identity_of_find? hfind] at h
      have hforgotten : Yields (· = memo) (remembered t)
          (.error (.unknownType t.name t.identity)) := by
        intro memo hmemo
        subst hmemo
        have hget : (get : Sizing Memo).run memo = (.ok memo, memo) := rfl
        rw [remembered, run_bind_ok hget, h]
        exact ⟨rfl, rfl⟩
      rw [alignWith, Index.require_of_find? hfind]
      exact ⟨_, (yields_lift _).bind (hforgotten.bind_error _)⟩
  | array elem length ih => exact ih (Option.map_eq_none_iff.mp h)
  | unsupported => exact ⟨_, yields_throw _⟩

theorem placeFields_remembered_fails (hmade : memo.Made config index maker) {fields : List Field}
    (h : fields.mapM (fun field => field.type.layout? config (memo.layoutIn index)) = none)
    (sofar : Layout) :
    ∃ cause, Yields (· = memo) (fields.foldlM (placeField config index remembered) sofar)
      (.error cause) := by
  induction fields generalizing sofar with
  | nil => simp at h
  | cons field rest ih =>
    rw [List.foldlM_cons]
    cases hfield : field.type.layout? config (memo.layoutIn index) with
    | none =>
      obtain ⟨cause, hcause⟩ := alignWith_remembered_fails hfield
      exact ⟨cause, (hcause.bind_error _).bind_error _⟩
    | some layout =>
      have hanswers := answers_of_layout? hmade (recalls_remembered memo)
        (Option.isSome_of_eq_some hfield)
      have hplace := yields_placeField hanswers sofar
      rw [hfield] at hplace
      have hrest : rest.mapM (fun field => field.type.layout? config (memo.layoutIn index)) =
          none := by
        rw [List.mapM_cons, hfield] at h
        cases hrest : rest.mapM fun (field : Field) =>
            field.type.layout? config (memo.layoutIn index) with
        | none => rfl
        | some layouts => simp [hrest] at h
      obtain ⟨cause, hcause⟩ := ih hrest (sofar.place layout)
      exact ⟨cause, Yields.bind hplace hcause⟩

theorem fields_of_fieldLayout_remembered (hmade : memo.Made config index maker) {t : TypeDef}
    {layout : Layout}
    (h : ((fieldLayout config index remembered t).run memo).1 = .ok layout) :
    ∃ fields, t.fields.mapM (fun field => field.type.layout? config (memo.layoutIn index)) =
      some fields ∧ Layout.ofFields fields = layout := by
  cases hfields : t.fields.mapM fun (field : Field) =>
      field.type.layout? config (memo.layoutIn index) with
  | none =>
    obtain ⟨cause, hcause⟩ := placeFields_remembered_fails hmade hfields ⟨0, 1⟩
    have hfailed : Yields (· = memo) (fieldLayout config index remembered t) (.error cause) :=
      hcause.bind_error _
    rw [(hfailed memo rfl).1] at h
    cases h
  | some fields =>
    have hlayout := yields_fieldLayout (answers_of_mapM_layout? hmade (recalls_remembered memo)
      (Option.isSome_of_eq_some hfields))
    rw [(hlayout memo rfl).1, hfields] at h
    cases h
    exact ⟨fields, rfl, rfl⟩

theorem aligned_of_mapM_layout? (hmade : memo.Made config index maker) {fields : List Field}
    {layouts : List Layout}
    (h : fields.mapM (fun field => field.type.layout? config (memo.layoutIn index)) =
      some layouts) : ∀ layout ∈ layouts, layout.Aligned config := by
  intro layout hmem
  obtain ⟨field, _, hlayout⟩ := mem_of_mapM_eq_some h layout hmem
  exact aligned_of_answers (answers_of_layout? hmade (recalls_remembered memo)
    (Option.isSome_of_eq_some hlayout)) hlayout

end Sizing

/-! One step of a run, and a whole run. -/

namespace Progress

variable {config : Config} {index : Index} {memo : Memo} {maker : String → Option TypeDef}
  {root : TypeDef} {p q : Progress}

theorem step_next (h : p.step config index = .next q) :
    ∃ top below, p.stack = top :: below ∧
      ((∃ t name, p.memo.firstPending top.fields = some (t.identity, name) ∧
        index.find? t.identity = some t ∧ t.identity ∉ p.active ∧ q = p.push t) ∨
      p.memo.firstPending top.fields = none ∧ ∃ layout,
        ((Sizing.fieldLayout config index Sizing.remembered top).run p.memo).1 = .ok layout ∧
          q = p.settle top below layout) := by
  cases hstack : p.stack with
  | nil => simp [step, hstack] at h
  | cons top below =>
    refine ⟨top, below, rfl, ?_⟩
    rw [step_eq config index hstack] at h
    cases hpending : p.memo.firstPending top.fields with
    | none =>
      simp only [hpending] at h
      split at h
      · rename_i layout hlayout
        cases h
        exact .inr ⟨rfl, layout, hlayout, rfl⟩
      · cases h
    | some reference =>
      simp only [hpending] at h
      split at h
      · cases h
      · rename_i t hfind
        split at h
        · cases h
        · rename_i hactive
          cases h
          have hidentity := Index.identity_of_find? hfind
          rw [← hidentity] at hfind hactive
          exact .inl ⟨t, reference.2, by rw [hidentity], hfind, hactive, rfl⟩

theorem getLast?_push (hstack : p.stack ≠ []) (t : TypeDef) :
    (p.push t).stack.getLast? = p.stack.getLast? := by
  rw [push, List.getLast?_cons_of_ne_nil hstack]

theorem mem_getLast?_of_below {top t : TypeDef} {below : List TypeDef}
    (hstack : p.stack = top :: below) (ht : t ∈ below.getLast?) : t ∈ p.stack.getLast? := by
  have hbelow : below ≠ [] := by
    rintro rfl
    cases ht
  rwa [hstack, List.getLast?_cons_of_ne_nil hbelow]

/-- What every step of a run from the root keeps, for a memo that the run started with. -/
structure Kept (config : Config) (index : Index) (maker : String → Option TypeDef) (memo : Memo)
    (root : TypeDef) (p : Progress) : Prop where
  active_eq : p.active = p.stack.map (·.identity)
  nodup : p.active.Nodup
  absent : ∀ identity ∈ p.active, identity ∉ p.memo.identities
  rooted : ∀ t ∈ p.stack.getLast?, t = root
  made_by : ∀ t ∈ p.stack, maker t.identity = some t
  made : p.memo.Made config index maker
  grown : memo.Extends p.memo

def Indexed (index : Index) (maker : String → Option TypeDef) (memo : Memo) (root : TypeDef) :
    Prop :=
  ∀ t, index.find? t.identity = some t → t.identity ∉ memo.identities →
    t.identity ≠ root.identity → maker t.identity = some t

theorem kept_start (hmade : memo.Made config index maker) (hroot : maker root.identity = some root)
    (hnew : root.identity ∉ memo.identities) :
    (start memo root).Kept config index maker memo root where
  active_eq := rfl
  nodup := List.nodup_singleton _
  absent := by simpa [start] using hnew
  rooted := by simp [start]
  made_by := by simpa [start] using hroot
  made := hmade
  grown := .refl memo

theorem Kept.root_mem (hkept : p.Kept config index maker memo root) (hstack : p.stack ≠ []) :
    root.identity ∈ p.active := by
  have hlast : p.stack.getLast? = some (p.stack.getLast hstack) :=
    List.getLast?_eq_some_getLast hstack
  have hroot := hkept.rooted _ hlast
  rw [hkept.active_eq, ← hroot]
  exact List.mem_map_of_mem (List.getLast_mem hstack)

theorem Kept.push (hkept : p.Kept config index maker memo root)
    (hindexed : Indexed index maker memo root) (hstack : p.stack ≠ []) {t : TypeDef}
    (hfind : index.find? t.identity = some t) (hmemo : t.identity ∉ p.memo.identities)
    (hactive : t.identity ∉ p.active) : (p.push t).Kept config index maker memo root where
  active_eq := congrArg (t.identity :: ·) hkept.active_eq
  nodup := List.nodup_cons.mpr ⟨hactive, hkept.nodup⟩
  absent := List.forall_mem_cons.mpr ⟨hmemo, hkept.absent⟩
  rooted := by
    rw [getLast?_push hstack]
    exact hkept.rooted
  made_by := by
    refine List.forall_mem_cons.mpr ⟨hindexed t hfind (hkept.grown.not_mem hmemo) ?_, hkept.made_by⟩
    intro hroot
    exact hactive (hroot ▸ hkept.root_mem hstack)
  made := hkept.made
  grown := hkept.grown

theorem Kept.settle (hkept : p.Kept config index maker memo root) {top : TypeDef}
    {below : List TypeDef} (hstack : p.stack = top :: below) {layout : Layout}
    (hlayout : ((Sizing.fieldLayout config index Sizing.remembered top).run p.memo).1 =
      .ok layout) : (p.settle top below layout).Kept config index maker memo root := by
  have htop : top ∈ p.stack := hstack ▸ List.mem_cons_self
  have hactive : p.active = top.identity :: below.map (·.identity) := by
    rw [hkept.active_eq, hstack, List.map_cons]
  have hnodup := hkept.nodup
  rw [hactive, List.nodup_cons] at hnodup
  have habsent := hkept.absent
  rw [hactive, List.forall_mem_cons] at habsent
  obtain ⟨fields, hfields, rfl⟩ := Sizing.fields_of_fieldLayout_remembered hkept.made hlayout
  have haligned : (Layout.ofFields fields).Aligned config :=
    Layout.aligned_ofFields (Sizing.aligned_of_mapM_layout? hkept.made hfields)
  rw [settle_eq hkept.active_eq hkept.nodup hstack]
  refine ⟨rfl, hnodup.2, fun identity hmem => ?_, fun t ht => ?_, fun t ht => ?_, ?_, ?_⟩
  · rw [Memo.mem_identities_insert, not_or]
    exact ⟨fun h => hnodup.1 (h ▸ hmem), habsent.2 identity hmem⟩
  · exact hkept.rooted t (mem_getLast?_of_below hstack ht)
  · exact hkept.made_by t (hstack ▸ List.mem_cons_of_mem top ht)
  · exact hkept.made.insert habsent.1 (hkept.made_by top htop) hfields haligned
  · exact hkept.grown.trans (Memo.extends_insert habsent.1 _)

theorem Kept.step (hkept : p.Kept config index maker memo root)
    (hindexed : Indexed index maker memo root) (h : p.step config index = .next q) :
    q.Kept config index maker memo root := by
  obtain ⟨top, below, hstack, hnext⟩ := step_next h
  obtain ⟨t, name, hpending, hfind, hactive, rfl⟩ | ⟨_, layout, hlayout, rfl⟩ := hnext
  · have hmemo := (Memo.firstPending_eq_some hpending).2
    exact hkept.push hindexed (by simp [hstack]) hfind hmemo hactive
  · exact hkept.settle hstack hlayout

theorem Kept.run (hkept : p.Kept config index maker memo root)
    (hindexed : Indexed index maker memo root) :
    (p.run config index).2.Made config index maker ∧ memo.Extends (p.run config index).2 := by
  fun_induction Progress.run config index p with
  | case1 p hstep => exact ⟨hkept.made, hkept.grown⟩
  | case2 p cause hstep => exact ⟨hkept.made, hkept.grown⟩
  | case3 p q hstep ih => exact ih (hkept.step hindexed hstep)

end Progress

/-! Questions, and sequences of questions. -/

namespace Sizing

def Keeps {α : Type} (inv : Memo → Prop) (c : Sizing α) : Prop :=
  ∀ memo, inv memo → inv (c.run memo).2

theorem composable_keeps (inv : Memo → Prop) : Composable (Keeps inv) where
  lift _ _ hmemo := hmemo
  bind := by
    intro _ _ c f hc hf memo hmemo
    have hkept := hc memo hmemo
    cases hanswer : (c.run memo).1 with
    | ok a =>
      rw [run_bind_ok (Prod.ext hanswer rfl)]
      exact hf a _ hkept
    | error cause =>
      rw [run_bind_error (Prod.ext hanswer rfl)]
      exact hkept

variable {config : Config} {index : Index} {memo : Memo} {maker : String → Option TypeDef}

theorem memo_layoutOf (config : Config) (index : Index) (memo : Memo) (t : TypeDef) :
    ((layoutOf config index t).run memo).2 =
      if (memo.find? t.identity).isSome then memo
      else ((Progress.start memo t).run config index).2 := by
  rw [layoutOf_run]
  cases memo.find? t.identity with
  | some layout => rfl
  | none =>
    cases (Progress.start memo t).run config index with
    | mk outcome found =>
      cases outcome with
      | error cause => rfl
      | ok =>
        have hget : (get : Sizing Memo).run found = (.ok found, found) := rfl
        dsimp only
        rw [remembered, run_bind_ok hget]
        cases found.find? t.identity <;> rfl

theorem made_layoutOf {t : TypeDef} (hmade : memo.Made config index maker)
    (hroot : t.identity ∉ memo.identities → maker t.identity = some t)
    (hindexed : Progress.Indexed index maker memo t) :
    ((layoutOf config index t).run memo).2.Made config index maker ∧
      memo.Extends ((layoutOf config index t).run memo).2 := by
  rw [memo_layoutOf]
  split
  · exact ⟨hmade, .refl memo⟩
  · rename_i hfound
    have hnew : t.identity ∉ memo.identities := by simpa [Memo.isSome_find?] using hfound
    exact (Progress.kept_start hmade (hroot hnew) hnew).run hindexed

theorem find?_of_layoutOf {t : TypeDef} {layout : Layout} {later : Memo}
    (h : (layoutOf config index t).run memo = (.ok layout, later)) :
    later.find? t.identity = some layout := by
  rw [layoutOf_run] at h
  cases hfound : memo.find? t.identity with
  | some found =>
    simp only [hfound] at h
    cases h
    exact hfound
  | none =>
    simp only [hfound] at h
    split at h
    · rename_i found _
      have hget : (get : Sizing Memo).run found = (.ok found, found) := rfl
      rw [remembered, run_bind_ok hget] at h
      split at h
      · rename_i hremembered
        cases h
        exact hremembered
      · cases h
    · cases h

theorem footprint_run (config : Config) (index : Index) (memo : Memo) (t : TypeDef) :
    (footprint config index t).run memo =
      (((layoutOf config index t).run memo).1.map (·.size),
        ((layoutOf config index t).run memo).2) := by
  unfold footprint
  cases houtcome : (layoutOf config index t).run memo with
  | mk answer later =>
    cases answer with
    | ok layout =>
      rw [run_bind_ok houtcome]
      rfl
    | error cause =>
      rw [run_bind_error houtcome]
      rfl

namespace Query

theorem keeps_answer {inv : Memo → Prop}
    (hinv : ∀ t, index.find? t.identity = some t → Keeps inv (layoutOf config index t))
    (query : Query) (hstored : query.Stored index) : Keeps inv (query.answer config index) := by
  cases query with
  | size ref => exact (composable_keeps inv).sizeWith hinv ref
  | align ref => exact (composable_keeps inv).alignWith hinv ref
  | footprint t =>
    intro memo hmemo
    rw [answer, footprint_run]
    exact hinv t hstored memo hmemo

/-- The definition that is laid out under the identity if a question leads there: the one that it
asks for, or else the one that the index holds. -/
def subject (index : Index) (identity : String) : Query → Option TypeDef
  | footprint t => if t.identity = identity then some t else index.find? identity
  | _ => index.find? identity

def makers (index : Index) (memo : Memo) (maker : String → Option TypeDef) (query : Query)
    (identity : String) : Option TypeDef :=
  if (memo.find? identity).isSome then maker identity else query.subject index identity

theorem makers_of_not_mem (query : Query) {identity : String} (h : identity ∉ memo.identities) :
    query.makers index memo maker identity = query.subject index identity := by
  simp [makers, Memo.find?_eq_none_of_not_mem h]

theorem made_answer (hmade : memo.Made config index maker) (query : Query) :
    ((query.answer config index).run memo).2.Made config index (query.makers index memo maker) ∧
      memo.Extends ((query.answer config index).run memo).2 := by
  have hmade : memo.Made config index (query.makers index memo maker) :=
    hmade.congr fun identity hsome => by simp [makers, hsome]
  have hlater : ∀ {later : Memo} {identity : String}, memo.Extends later →
      identity ∉ later.identities → identity ∉ memo.identities := by
    intro later identity hextends hnew
    rw [← Memo.isSome_find?] at hnew ⊢
    exact fun hsome => hnew (hextends.isSome_find? hsome)
  have hindex : (∀ identity, query.subject index identity = index.find? identity) →
      ∀ t, index.find? t.identity = some t → Keeps (fun later =>
        later.Made config index (query.makers index memo maker) ∧ memo.Extends later)
          (layoutOf config index t) := by
    intro hsubject t hfind later ⟨hmade, hextends⟩
    have hmaker : ∀ u : TypeDef, index.find? u.identity = some u → u.identity ∉ later.identities →
        query.makers index memo maker u.identity = some u := by
      intro u hu hnew
      rw [makers_of_not_mem query (hlater hextends hnew), hsubject]
      exact hu
    obtain ⟨hmade', hextends'⟩ :=
      made_layoutOf hmade (hmaker t hfind) fun u hu hnew _ => hmaker u hu hnew
    exact ⟨hmade', hextends.trans hextends'⟩
  cases query with
  | size ref =>
    exact (composable_keeps _).sizeWith (hindex fun _ => rfl) ref memo ⟨hmade, .refl memo⟩
  | align ref =>
    exact (composable_keeps _).alignWith (hindex fun _ => rfl) ref memo ⟨hmade, .refl memo⟩
  | footprint t =>
    rw [answer, footprint_run]
    exact made_layoutOf hmade (fun hnew => by simp [makers_of_not_mem _ hnew, subject])
      fun u hu hnew hne => by simp [makers_of_not_mem _ hnew, subject, Ne.symm hne, hu]

end Query

def memoAfter (config : Config) (index : Index) : List Query → Memo → Memo
  | [], memo => memo
  | query :: rest, memo => memoAfter config index rest ((query.answer config index).run memo).2

theorem keeps_memoAfter {inv : Memo → Prop}
    (hinv : ∀ t, index.find? t.identity = some t → Keeps inv (layoutOf config index t))
    {history : List Query} (hstored : ∀ query ∈ history, query.Stored index) (hmemo : inv memo) :
    inv (memoAfter config index history memo) := by
  induction history generalizing memo with
  | nil => exact hmemo
  | cons query rest ih =>
    rw [List.forall_mem_cons] at hstored
    exact ih hstored.2 (query.keeps_answer hinv hstored.1 memo hmemo)

/-- The definition whose layout the memo holds under the identity after a sequence of questions. It
was laid out for the first question that left a layout there. -/
def laidOut (config : Config) (index : Index) (identity : String) :
    List Query → Memo → Option TypeDef
  | [], _ => none
  | query :: rest, memo =>
    let later := ((query.answer config index).run memo).2
    if (later.find? identity).isSome then query.subject index identity
    else laidOut config index identity rest later

theorem made_memoAfter (hmade : memo.Made config index maker) (history : List Query) :
    (memoAfter config index history memo).Made config index fun identity =>
      if (memo.find? identity).isSome then maker identity
      else laidOut config index identity history memo := by
  induction history generalizing memo maker with
  | nil => exact hmade.congr fun identity hsome => if_pos hsome
  | cons query rest ih =>
    obtain ⟨hlater, hextends⟩ := query.made_answer hmade
    refine (ih hlater).congr fun identity _ => ?_
    dsimp only [laidOut, Query.makers]
    by_cases hsome : (memo.find? identity).isSome
    · rw [if_pos hsome, if_pos (hextends.isSome_find? hsome), if_pos hsome]
    · rw [if_neg hsome, if_neg hsome]

end Sizing

end CopyLint
