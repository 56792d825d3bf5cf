import Mathlib.Logic.Function.Basic
import CopyLint.FilterCount
import CopyLint.Layout.Recursive
import CopyLint.Proofs.Attempts
import CopyLint.Proofs.Embedding

/-! The recursive layout is the fixed point that its definition promises: as many levels as the
index has definitions are enough for every definition that has a layout at all, and none of these
embeds itself. -/
namespace CopyLint

namespace TypeRef

variable {config : Config} {inner : String → Option Layout}

theorem isSome_layout?_iff (ref : TypeRef) :
    (ref.layout? config inner).isSome ↔ ref.core ≠ .unsupported ∧
      ∀ reference, ref.embedded = some reference → (inner reference.1).isSome := by
  induction ref with
  | array elem length ih => simpa [layout?] using ih
  | named identity name => simp [layout?, core]
  | scalar => simp [layout?, core, embedded]
  | pointer => simp [layout?, core, embedded]
  | rawPointer => simp [layout?, core, embedded]
  | unsupported => simp [layout?, core]

end TypeRef

namespace Index

variable {config : Config} {index : Index}

def layoutFrom (config : Config) (index : Index) (inner : String → Option Layout)
    (identity : String) : Option Layout := do
  let t ← index.find? identity
  let fields ← t.fields.mapM fun field => field.type.layout? config inner
  pure (Layout.ofFields fields)

theorem layoutWithin_succ_eq (config : Config) (index : Index) (depth : Nat) :
    index.layoutWithin config (depth + 1) =
      index.layoutFrom config (index.layoutWithin config depth) :=
  rfl

theorem layoutFrom_eq_some_iff {inner : String → Option Layout} {identity : String}
    {layout : Layout} :
    index.layoutFrom config inner identity = some layout ↔
      ∃ t, index.find? identity = some t ∧ ∃ fields,
        t.fields.mapM (fun field => field.type.layout? config inner) = some fields ∧
          Layout.ofFields fields = layout := by
  unfold layoutFrom
  simp only [Option.bind_eq_bind, Option.bind_eq_some_iff, Option.pure_def, Option.some.injEq]

theorem isSome_layoutFrom_iff {inner : String → Option Layout} {identity : String} :
    (index.layoutFrom config inner identity).isSome ↔ ∃ t, index.find? identity = some t ∧
      (∀ field ∈ t.fields, field.type.core ≠ .unsupported) ∧
        ∀ reference ∈ references t.fields, (inner reference.1).isSome := by
  rw [Option.isSome_iff_exists]
  simp only [layoutFrom_eq_some_iff]
  constructor
  · rintro ⟨layout, t, hfind, fields, hfields, rfl⟩
    have hall := isSome_mapM_iff.mp (Option.isSome_of_eq_some hfields)
    refine ⟨t, hfind, fun field hfield => ?_, fun reference hmem => ?_⟩
    · exact ((TypeRef.isSome_layout?_iff _).mp (hall field hfield)).1
    · obtain ⟨field, hfield, hreference⟩ := mem_references.mp hmem
      exact ((TypeRef.isSome_layout?_iff _).mp (hall field hfield)).2 reference hreference
  · rintro ⟨t, hfind, hsupported, hinner⟩
    have hall : (t.fields.mapM fun (field : Field) => field.type.layout? config inner).isSome := by
      rw [isSome_mapM_iff]
      intro field hfield
      refine (TypeRef.isSome_layout?_iff _).mpr ⟨hsupported field hfield, fun reference h => ?_⟩
      exact hinner reference (mem_references.mpr ⟨field, hfield, h⟩)
    obtain ⟨fields, hfields⟩ := Option.isSome_iff_exists.mp hall
    exact ⟨_, t, hfind, fields, hfields, rfl⟩

theorem layoutWithin_mono {depth more : Nat} (h : depth ≤ more) {identity : String}
    {layout : Layout} (hlayout : index.layoutWithin config depth identity = some layout) :
    index.layoutWithin config more identity = some layout := by
  induction h with
  | refl => exact hlayout
  | step _ ih => exact layoutWithin_succ _ _ _ ih

/-- Room for one more level adds no layout. -/
def Saturated (config : Config) (index : Index) (depth : Nat) : Prop :=
  index.layoutWithin config (depth + 1) = index.layoutWithin config depth

theorem Saturated.succ {depth : Nat} (h : index.Saturated config depth) :
    index.Saturated config (depth + 1) := by
  unfold Saturated at h ⊢
  rw [layoutWithin_succ_eq, h, ← layoutWithin_succ_eq]
  exact h

theorem Saturated.layoutWithin_eq {depth : Nat} (h : index.Saturated config depth) (extra : Nat) :
    index.layoutWithin config (depth + extra) = index.layoutWithin config depth ∧
      index.Saturated config (depth + extra) := by
  induction extra with
  | zero => exact ⟨rfl, h⟩
  | succ extra ih => exact ⟨ih.2.trans ih.1, ih.2.succ⟩

def sized (config : Config) (index : Index) (depth : Nat) : List String :=
  index.identities.filter fun identity => (index.layoutWithin config depth identity).isSome

/-- Until nothing changes any more, each level adds a definition. -/
theorem saturated_or_lt_sized (config : Config) (index : Index) (depth : Nat) :
    index.Saturated config depth ∨ depth < (index.sized config (depth + 1)).length := by
  by_cases hstable : index.Saturated config depth
  · exact .inl hstable
  · right
    obtain ⟨identity, hne⟩ := Function.ne_iff.mp hstable
    have hnone : index.layoutWithin config depth identity = none := by
      rw [Option.eq_none_iff_forall_ne_some]
      intro layout hlayout
      exact hne ((layoutWithin_succ _ _ _ hlayout).trans hlayout.symm)
    have hsome : (index.layoutWithin config (depth + 1) identity).isSome := by
      rw [← Option.ne_none_iff_isSome]
      exact fun h => hne (h.trans hnone.symm)
    have hmem : identity ∈ index.identities := by
      obtain ⟨layout, hlayout⟩ := Option.isSome_iff_exists.mp hsome
      obtain ⟨t, hfind, _⟩ := layoutFrom_eq_some_iff.mp hlayout
      exact mem_identities_of_find? hfind
    have hlt : (index.sized config depth).length < (index.sized config (depth + 1)).length := by
      unfold sized
      refine length_filter_lt_of_imp (a := identity) hsome (by simp [hnone]) hmem ?_
      intro other _ hother
      obtain ⟨layout, hlayout⟩ := Option.isSome_iff_exists.mp hother
      exact Option.isSome_of_eq_some (layoutWithin_succ _ _ _ hlayout)
    match depth with
    | 0 => exact Nat.zero_lt_of_lt hlt
    | depth + 1 =>
      rcases saturated_or_lt_sized config index depth with h | h
      · exact absurd h.succ hstable
      · omega

theorem saturated_length (config : Config) (index : Index) :
    index.Saturated config index.definitions.length := by
  rcases saturated_or_lt_sized config index index.definitions.length with h | h
  · exact h
  · have hle : (index.sized config (index.definitions.length + 1)).length ≤
        index.definitions.length := by
      have hle := List.length_filter_le
        (fun i => (index.layoutWithin config (index.definitions.length + 1) i).isSome)
        index.identities
      rwa [identities, List.length_map] at hle
    omega

theorem layout?_eq (config : Config) (index : Index) (identity : String) :
    index.layout? config identity = index.layoutFrom config (index.layout? config) identity :=
  congrFun (saturated_length config index).symm identity

theorem layout?_of_find? {identity : String} {t : TypeDef} (hfind : index.find? identity = some t) :
    index.layout? config identity =
      (t.fields.mapM fun (field : Field) =>
        field.type.layout? config (index.layout? config)).map Layout.ofFields := by
  rw [layout?_eq, layoutFrom, hfind, Option.map_eq_bind]
  rfl

theorem layout?_of_layoutWithin {depth : Nat} {identity : String} {layout : Layout}
    (h : index.layoutWithin config depth identity = some layout) :
    index.layout? config identity = some layout := by
  have hmore := layoutWithin_mono (Nat.le_add_left depth index.definitions.length) h
  rw [((saturated_length config index).layoutWithin_eq depth).1] at hmore
  exact hmore

theorem isSome_layout?_iff {identity : String} :
    (index.layout? config identity).isSome ↔ ∃ t, index.find? identity = some t ∧
      (∀ field ∈ t.fields, field.type.core ≠ .unsupported) ∧
        ∀ reference ∈ references t.fields, (index.layout? config reference.1).isSome := by
  rw [layout?_eq]
  exact isSome_layoutFrom_iff

theorem find?_of_isSome_layout? {identity : String}
    (h : (index.layout? config identity).isSome) : ∃ t, index.find? identity = some t := by
  obtain ⟨t, hfind, _⟩ := isSome_layout?_iff.mp h
  exact ⟨t, hfind⟩

theorem layout?_eq_none_of_reference {t : TypeDef} {reference : String × String}
    (hfind : index.find? t.identity = some t) (hmem : reference ∈ references t.fields)
    (hnone : index.layout? config reference.1 = none) :
    index.layout? config t.identity = none := by
  rw [← Option.not_isSome_iff_eq_none] at hnone ⊢
  intro hsome
  obtain ⟨t', hfind', _, hinner⟩ := isSome_layout?_iff.mp hsome
  cases hfind.symm.trans hfind'
  exact hnone (hinner reference hmem)

theorem Reaches.exists_layoutWithin {outer inner : String} (h : index.Reaches outer inner) :
    ∀ {depth : Nat}, (index.layoutWithin config depth outer).isSome →
      ∃ less < depth, (index.layoutWithin config less inner).isSome := by
  have hstep : ∀ {outer inner : String} {depth : Nat}, index.Embeds outer inner →
      (index.layoutWithin config depth outer).isSome →
        ∃ less < depth, (index.layoutWithin config less inner).isSome := by
    intro outer inner depth hembeds hsome
    cases depth with
    | zero => simp [layoutWithin] at hsome
    | succ depth =>
      obtain ⟨t, hfind, name, hmem⟩ := hembeds.exists_reference
      obtain ⟨t', hfind', _, hinner⟩ := isSome_layoutFrom_iff.mp hsome
      cases hfind.symm.trans hfind'
      exact ⟨depth, Nat.lt_succ_self depth, hinner _ hmem⟩
  induction h with
  | step hembeds => exact hstep hembeds
  | trans hembeds _ ih =>
    intro depth hsome
    obtain ⟨less, hless, hsome⟩ := hstep hembeds hsome
    obtain ⟨least, hleast, hsome⟩ := ih hsome
    exact ⟨least, Nat.lt_trans hleast hless, hsome⟩

theorem Reaches.isSome_layout? {outer inner : String} (h : index.Reaches outer inner)
    (hsome : (index.layout? config outer).isSome) : (index.layout? config inner).isSome := by
  obtain ⟨depth, _, hsome⟩ := h.exists_layoutWithin hsome
  obtain ⟨layout, hlayout⟩ := Option.isSome_iff_exists.mp hsome
  exact Option.isSome_of_eq_some (layout?_of_layoutWithin hlayout)

/-- A definition with a layout does not embed itself. -/
theorem not_reaches_self {identity : String} (hsome : (index.layout? config identity).isSome) :
    ¬index.Reaches identity identity := by
  intro hcycle
  -- Each turn round the cycle would leave a layout with fewer levels.
  have hnone : ∀ depth, ¬(index.layoutWithin config depth identity).isSome := by
    intro depth
    induction depth using Nat.strongRecOn with
    | ind depth ih =>
      intro h
      obtain ⟨less, hless, h⟩ := hcycle.exists_layoutWithin h
      exact ih less hless h
  exact hnone _ hsome

theorem exists_of_layoutWithin_succ {depth : Nat} {identity : String} {layout : Layout}
    (h : index.layoutWithin config (depth + 1) identity = some layout) :
    ∃ t fields, index.find? identity = some t ∧
      t.fields.mapM (fun field => field.type.layout? config (index.layout? config)) =
        some fields ∧ Layout.ofFields fields = layout ∧
      ∀ reference ∈ references t.fields, ∀ inner,
        index.layout? config reference.1 = some inner →
          index.layoutWithin config depth reference.1 = some inner := by
  obtain ⟨t, hfind, fields, hfields, rfl⟩ := layoutFrom_eq_some_iff.mp h
  have hsome : ∀ reference ∈ references t.fields,
      (index.layoutWithin config depth reference.1).isSome := by
    obtain ⟨t', hfind', _, hinner⟩ := isSome_layoutFrom_iff.mp (Option.isSome_of_eq_some h)
    cases hfind.symm.trans hfind'
    exact hinner
  refine ⟨t, fields, hfind, ?_, rfl, fun reference hmem inner hlayout => ?_⟩
  · exact mapM_mono (fun field => field.type.layout?_mono
      (fun _ _ => layout?_of_layoutWithin)) _ _ hfields
  · obtain ⟨found, hfound⟩ := Option.isSome_iff_exists.mp (hsome reference hmem)
    cases (layout?_of_layoutWithin hfound).symm.trans hlayout
    exact hfound

/-- What the fields' layouts pass on to the layout made of them holds of every layout. -/
theorem layout?_induction {P : String → Layout → Prop}
    (hstep : ∀ identity t fields, index.find? identity = some t →
      t.fields.mapM (fun field => field.type.layout? config (index.layout? config)) = some fields →
      (∀ reference ∈ references t.fields, ∀ layout,
        index.layout? config reference.1 = some layout → P reference.1 layout) →
      P identity (Layout.ofFields fields))
    {identity : String} {layout : Layout} (h : index.layout? config identity = some layout) :
    P identity layout := by
  have hwithin : ∀ depth identity layout,
      index.layoutWithin config depth identity = some layout → P identity layout := by
    intro depth
    induction depth with
    | zero => exact nofun
    | succ depth ih =>
      intro identity layout h
      obtain ⟨t, fields, hfind, hfields, rfl, hinner⟩ := exists_of_layoutWithin_succ h
      apply hstep identity t fields hfind hfields
      intro reference hmem layout hlayout
      exact ih _ _ (hinner reference hmem layout hlayout)
  exact hwithin _ _ _ h

end Index

/-! Alignments stay within the platform's limits. -/

namespace Layout

def Aligned (config : Config) (layout : Layout) : Prop :=
  1 ≤ layout.align ∧ layout.align ≤ config.maxAlign

variable {config : Config}

theorem aligned_cap (config : Config) (size align : Int) :
    Aligned config ⟨size, config.cap align⟩ :=
  ⟨config.one_le_cap align, config.cap_le align⟩

theorem cap_align {layout : Layout} (h : layout.Aligned config) :
    config.cap layout.align = layout.align := by
  obtain ⟨hone, hmax⟩ := h
  unfold Config.cap
  omega

theorem aligned_foldl_place {fields : List Layout}
    (hfields : ∀ field ∈ fields, field.Aligned config) {sofar : Layout}
    (hsofar : sofar.Aligned config) :
    (fields.foldl place sofar).Aligned config := by
  induction fields generalizing sofar with
  | nil => exact hsofar
  | cons field rest ih =>
    rw [List.forall_mem_cons] at hfields
    refine ih hfields.2 ?_
    obtain ⟨hone, hmax⟩ := hsofar
    obtain ⟨hone', hmax'⟩ := hfields.1
    constructor
    · unfold place
      dsimp only
      omega
    · unfold place
      dsimp only
      omega

theorem aligned_empty (config : Config) : Aligned config ⟨0, 1⟩ :=
  ⟨Int.le_refl 1, config.maxAlign_pos⟩

theorem aligned_ofFields {fields : List Layout} (h : ∀ field ∈ fields, field.Aligned config) :
    (ofFields fields).Aligned config :=
  aligned_foldl_place h (aligned_empty config)

end Layout

theorem TypeRef.aligned_layout? {config : Config} {inner : String → Option Layout} {ref : TypeRef}
    (hinner : ∀ reference, ref.embedded = some reference →
      ∀ layout, inner reference.1 = some layout → layout.Aligned config)
    {layout : Layout} (h : ref.layout? config inner = some layout) : layout.Aligned config := by
  induction ref generalizing layout with
  | scalar s =>
    cases h
    exact Layout.aligned_cap config _ _
  | named identity name => exact hinner (identity, name) rfl layout h
  | pointer target label =>
    cases h
    exact Layout.aligned_cap config _ _
  | rawPointer label =>
    cases h
    exact Layout.aligned_cap config _ _
  | array elem length ih =>
    obtain ⟨found, hfound, rfl⟩ := Option.map_eq_some_iff.mp h
    have helem : found.Aligned config := ih hinner hfound
    exact helem
  | unsupported => cases h

theorem Index.aligned_layout? {config : Config} {index : Index} {identity : String}
    {layout : Layout} (h : index.layout? config identity = some layout) :
    layout.Aligned config := by
  refine layout?_induction (P := fun _ layout => layout.Aligned config) ?_ h
  intro identity t fields _ hfields hinner
  refine Layout.aligned_ofFields fun layout hmem => ?_
  obtain ⟨field, hfield, hlayout⟩ := mem_of_mapM_eq_some hfields layout hmem
  refine TypeRef.aligned_layout? (fun reference hreference => ?_) hlayout
  exact hinner reference (mem_references.mpr ⟨field, hfield, hreference⟩)

end CopyLint
