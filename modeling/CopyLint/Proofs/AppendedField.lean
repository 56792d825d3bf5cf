import CopyLint.CopySite
import CopyLint.Proofs.Expansion
import CopyLint.Proofs.SuccessfulRun

/-! One more field at the end of a struct. Its alignment may become that of the struct without being
a multiple of the old one, so the new total need not be a multiple of what the old one was rounded
to. The struct still does not shrink if the field takes any space at all. -/
namespace CopyLint

namespace Layout

theorem roundUp_le_place {sofar field : Layout} (hsofar : 1 ≤ sofar.align)
    (hfield : 1 ≤ field.align) (hsize : 1 ≤ field.size) :
    roundUp sofar.size sofar.align ≤
      roundUp (sofar.place field).size (sofar.place field).align := by
  have hstart : sofar.size ≤ roundUp sofar.size field.align := le_roundUp _ hfield
  unfold place
  dsimp only
  rcases Int.le_total field.align sofar.align with hle | hle
  · rw [Int.max_eq_left hle]
    have hend := le_roundUp (roundUp sofar.size field.align + field.size) hsofar
    exact roundUp_le hsofar (dvd_roundUp _ _) (by omega)
  · -- The new total is a multiple of the field's alignment and behind the field's start, which is
    -- one too: a whole alignment lies between them.
    rw [Int.max_eq_right hle]
    generalize htotal : roundUp (roundUp sofar.size field.align + field.size) field.align = total
    have hend : roundUp sofar.size field.align + field.size ≤ total :=
      htotal ▸ le_roundUp _ hfield
    have hdvd : field.align ∣ total - roundUp sofar.size field.align :=
      Int.dvd_sub (htotal ▸ dvd_roundUp _ _) (dvd_roundUp _ _)
    have hgap : field.align ≤ total - roundUp sofar.size field.align :=
      Int.le_of_dvd (by omega) hdvd
    have hold : roundUp sofar.size sofar.align < sofar.size + sofar.align := roundUp_lt _ hsofar
    omega

theorem size_ofFields_le_append {config : Config} {fields : List Layout} {field : Layout}
    (hfields : ∀ field ∈ fields, field.Aligned config) (hfield : field.Aligned config)
    (hsize : 1 ≤ field.size) :
    (ofFields fields).size ≤ (ofFields (fields ++ [field])).size := by
  have hsofar : (fields.foldl place ⟨0, 1⟩).Aligned config :=
    aligned_foldl_place hfields (aligned_empty config)
  simp only [ofFields, List.foldl_append, List.foldl_cons, List.foldl_nil]
  exact roundUp_le_place hsofar.1 hfield.1 hsize

end Layout

/-! References with a size. -/

namespace Sizing

variable {config : Config} {index : Index} {ref : TypeRef}

theorem yields_layoutOf_of_none {t : TypeDef} (hfind : index.find? t.identity = some t)
    (h : index.layout? config t.identity = none) :
    ∃ cause, Yields (Memo.Correct config index) (layoutOf config index t) (.error cause) := by
  have hyields : Yields (Memo.Correct config index) (layoutOf config index t)
      (index.layoutOrFailure config t) := yields_layoutOf hfind
  unfold Index.layoutOrFailure at hyields
  rw [h] at hyields
  exact ⟨_, hyields⟩

theorem yields_require_of_none {identity : String}
    (h : index.layout? config identity = none) (name : String) {β : Type} (f : Layout → Sizing β) :
    ∃ cause, Yields (Memo.Correct config index)
      (liftM (index.require identity name) >>= fun t => layoutOf config index t >>= f)
      (.error cause) := by
  cases hfind : index.find? identity with
  | none =>
    rw [Index.require_of_find?_eq_none hfind]
    exact ⟨_, (yields_lift _).bind_error _⟩
  | some t =>
    have hidentity := Index.identity_of_find? hfind
    subst hidentity
    obtain ⟨cause, hcause⟩ := yields_layoutOf_of_none hfind h
    rw [Index.require_of_find? hfind]
    exact ⟨cause, (yields_lift _).bind (hcause.bind_error _)⟩

theorem yields_alignof_of_none (h : ref.layout? config (index.layout? config) = none) :
    ∃ cause, Yields (Memo.Correct config index) (alignof config index ref) (.error cause) := by
  induction ref with
  | scalar | pointer | rawPointer => cases h
  | named identity name => exact yields_require_of_none h name _
  | array elem length ih => exact ih (Option.map_eq_none_iff.mp h)
  | unsupported => exact ⟨_, yields_throw _⟩

theorem yields_sizeof_of_none (h : ref.layout? config (index.layout? config) = none) :
    (∃ cause, Yields (Memo.Correct config index) (sizeof config index ref) (.error cause)) ∨
      Yields (Memo.Correct config index) (sizeof config index ref) (.ok 0) := by
  induction ref with
  | scalar | pointer | rawPointer => cases h
  | named identity name => exact .inl (yields_require_of_none h name _)
  | array elem length ih =>
    have helem := Option.map_eq_none_iff.mp h
    rw [sizeof, sizeWith]
    split
    · exact .inr (yields_pure _)
    · left
      rcases ih helem with ⟨cause, hcause⟩ | hzero
      · exact ⟨cause, hcause.bind_error _⟩
      · obtain ⟨cause, hcause⟩ := yields_alignof_of_none helem
        exact ⟨cause, hzero.bind (hcause.bind_error _)⟩
  | unsupported => exact .inl ⟨_, yields_throw _⟩

theorem layout?_of_sizeof {size : Int} (h : ((sizeof config index ref).run []).1 = .ok size)
    (hsize : size ≠ 0) :
    ∃ layout, ref.layout? config (index.layout? config) = some layout ∧ layout.size = size := by
  have hnil := Memo.correct_nil config index
  cases hlayout : ref.layout? config (index.layout? config) with
  | some layout =>
    have hinner := ((TypeRef.isSome_layout?_iff ref).mp (Option.isSome_of_eq_some hlayout)).2
    have hanswers : ∀ reference, ref.embedded = some reference →
        index.Answers config (Memo.Correct config index) (layoutOf config index)
          (index.layout? config) reference := by
      intro reference hreference
      obtain ⟨found, hfound⟩ := Option.isSome_iff_exists.mp (hinner reference hreference)
      exact answers_layoutOf hfound
    cases (yields_sizeWith hanswers hlayout [] hnil).1.symm.trans h
    exact ⟨layout, rfl, rfl⟩
  | none =>
    rcases yields_sizeof_of_none hlayout with ⟨cause, hcause⟩ | hzero
    · cases (hcause [] hnil).1.symm.trans h
    · cases (hzero [] hnil).1.symm.trans h
      exact absurd rfl hsize

end Sizing

/-! Layouts in two indexes. -/

theorem TypeRef.layout?_of_embedded {config : Config} {inner inner' : String → Option Layout}
    {ref : TypeRef} {layout : Layout} (h : ref.layout? config inner = some layout)
    (hinner : ∀ reference, ref.embedded = some reference → ∀ found,
      inner reference.1 = some found → inner' reference.1 = some found) :
    ref.layout? config inner' = some layout := by
  induction ref generalizing layout with
  | scalar | pointer | rawPointer | unsupported => exact h
  | named identity name => exact hinner (identity, name) rfl layout h
  | array elem length ih =>
    obtain ⟨found, hfound, rfl⟩ := Option.map_eq_some_iff.mp h
    exact Option.map_eq_some_iff.mpr ⟨found, ih hfound hinner, rfl⟩

theorem mapM_layout?_of_references {config : Config} {inner inner' : String → Option Layout}
    {fields : List Field} {layouts : List Layout}
    (h : fields.mapM (fun field => field.type.layout? config inner) = some layouts)
    (hinner : ∀ reference ∈ references fields, ∀ found,
      inner reference.1 = some found → inner' reference.1 = some found) :
    fields.mapM (fun field => field.type.layout? config inner') = some layouts := by
  have hfield : ∀ field ∈ fields, ∀ layout, field.type.layout? config inner = some layout →
      ∃ layout', field.type.layout? config inner' = some layout' ∧ layout = layout' := by
    intro field hmem layout hlayout
    refine ⟨layout, TypeRef.layout?_of_embedded hlayout fun reference hreference => ?_, rfl⟩
    exact hinner reference (mem_references.mpr ⟨field, hmem, hreference⟩)
  obtain ⟨layouts', hlayouts', heq⟩ := exists_mapM_of_forall h hfield
  rw [List.forall₂_eq_eq_eq] at heq
  rwa [heq]

namespace Index

variable {config : Config} {index index' : Index} {t t' : TypeDef}

theorem layout?_of_includes {identity : String} {layout : Layout}
    (h : index.layout? config identity = some layout)
    (hagree : ∀ inner u, index.Includes identity inner → index.find? inner = some u →
      index'.find? inner = some u) :
    index'.layout? config identity = some layout := by
  revert hagree
  refine layout?_induction (P := fun identity layout =>
    (∀ inner u, index.Includes identity inner → index.find? inner = some u →
      index'.find? inner = some u) → index'.layout? config identity = some layout) ?_ h
  intro identity t fields hfind hfields ih hagree
  rw [layout?_of_find? (hagree identity t (.refl _) hfind), Option.map_eq_some_iff]
  refine ⟨fields, mapM_layout?_of_references hfields ?_, rfl⟩
  intro reference hmem layout hlayout
  refine ih reference hmem layout hlayout fun inner u hincludes => hagree inner u ?_
  exact .of_embeds (embeds_of_mem_references hfind hmem) hincludes

def put (index : Index) (t : TypeDef) : Index :=
  ⟨t :: index.definitions⟩

theorem find?_put_self (index : Index) (t : TypeDef) :
    (index.put t).find? t.identity = some t := by
  simp [put, find?]

theorem find?_put_of_ne (index : Index) {identity : String} (h : identity ≠ t.identity) :
    (index.put t).find? identity = index.find? identity := by
  simp [put, find?, Ne.symm h]

/-- The second index has `t'` where the first one has `t`. Either may be missing from its index, and
`t'` may also have an identity of its own. -/
structure Swapped (index index' : Index) (t t' : TypeDef) : Prop where
  place : (index.find? t'.identity).isSome → t'.identity = t.identity
  same : ∀ identity, identity ≠ t'.identity → index'.find? identity = index.find? identity
  held : ∀ u, index'.find? t'.identity = some u → u = t'

theorem Swapped.layout?_put (h : index.Swapped index' t t') {layout : Layout}
    (hlayout : (index.put t).layout? config t.identity = some layout)
    {reference : String × String} (hmem : reference ∈ references t.fields) {found : Layout}
    (hfound : (index.put t).layout? config reference.1 = some found) :
    (index'.put t').layout? config reference.1 = some found := by
  refine layout?_of_includes hfound fun inner u hincludes hfind => ?_
  have hreaches : (index.put t).Reaches t.identity inner := by
    have hembeds := embeds_of_mem_references (find?_put_self index t) hmem
    rcases hincludes with rfl | hreaches
    · exact .step hembeds
    · exact .trans hembeds hreaches
  have hne : inner ≠ t.identity := by
    rintro rfl
    exact not_reaches_self (Option.isSome_of_eq_some hlayout) hreaches
  rw [find?_put_of_ne index hne] at hfind
  have hne' : inner ≠ t'.identity := by
    rintro rfl
    exact hne (h.place (Option.isSome_of_eq_some hfind))
  rw [find?_put_of_ne index' hne', h.same inner hne']
  exact hfind

theorem Swapped.layout?_append (h : index.Swapped index' t t') {field : Field}
    (hfields : t'.fields = t.fields ++ [field]) {layout extra : Layout}
    (hlayout : (index.put t).layout? config t.identity = some layout)
    (hextra : field.type.layout? config (index'.layout? config) = some extra) :
    ∃ layouts, (∀ layout ∈ layouts, layout.Aligned config) ∧ layout = .ofFields layouts ∧
      (index'.put t').layout? config t'.identity = some (.ofFields (layouts ++ [extra])) := by
  have hold := hlayout
  rw [layout?_of_find? (find?_put_self index t)] at hold
  obtain ⟨layouts, hlayouts, rfl⟩ := Option.map_eq_some_iff.mp hold
  refine ⟨layouts, fun layout hmem => ?_, rfl, ?_⟩
  · obtain ⟨field, _, hfield⟩ := mem_of_mapM_eq_some hlayouts layout hmem
    exact TypeRef.aligned_layout? (fun _ _ _ => aligned_layout?) hfield
  · have hkept := mapM_layout?_of_references hlayouts fun reference hmem found =>
      h.layout?_put hlayout hmem
    have hnew : field.type.layout? config ((index'.put t').layout? config) = some extra := by
      refine TypeRef.layout?_of_embedded hextra fun reference _ found hfound => ?_
      refine layout?_of_includes hfound fun inner u _ hfind => ?_
      by_cases hinner : inner = t'.identity
      · subst hinner
        rw [h.held u hfind, find?_put_self]
      · rwa [find?_put_of_ne index' hinner]
    rw [layout?_of_find? (find?_put_self index' t'), hfields, List.mapM_append, hkept]
    simp [hnew]

end Index

/-! Definitions in their place. -/

namespace Sizing

variable {config : Config} {index : Index} {t : TypeDef}

theorem layoutOf_eq_ok_iff {layout : Layout} :
    ((layoutOf config index t).run []).1 = .ok layout ↔
      (index.put t).layout? config t.identity = some layout := by
  have hput : ((layoutOf config (index.put t) t).run []).1 =
      (index.put t).layoutOrFailure config t :=
    (yields_layoutOf (index.find?_put_self t) [] (Memo.correct_nil config _)).1
  have hiff : (index.put t).layoutOrFailure config t = .ok layout ↔
      (index.put t).layout? config t.identity = some layout := by
    unfold Index.layoutOrFailure
    cases (index.put t).layout? config t.identity with
    | none => exact ⟨nofun, nofun⟩
    | some found => simp
  have hmade (index : Index) : Memo.Made config index (fun _ => none) [] :=
    Memo.made_nil config index _
  rw [← hiff, ← hput]
  constructor
  · intro h
    have hrun := layoutOf_agree (hmade index) (fun _ => index.find?_put_of_ne) (Prod.ext h rfl)
    rw [hrun]
  · intro h
    have hrun := layoutOf_agree (hmade (index.put t))
      (fun _ hne => (index.find?_put_of_ne hne).symm) (Prod.ext h rfl)
    rw [hrun]

theorem footprint_eq_ok_iff_put {size : Int} :
    ((footprint config index t).run []).1 = .ok size ↔
      ∃ layout, (index.put t).layout? config t.identity = some layout ∧ layout.size = size := by
  rw [footprint_run]
  simp only [← layoutOf_eq_ok_iff]
  cases ((layoutOf config index t).run []).1 with
  | error cause => simp [Except.map]
  | ok layout => simp [Except.map]

theorem run_classify_singleton (config : Config) (index : Index) (t : TypeDef) (memo : Memo) :
    ((classify config (footprint config index) [t]).run memo).1 =
      ((footprint config index t).run memo).1.map fun size =>
        if config.maxWidth < size then [t.identity] else [] := by
  have hclassify : classify config (footprint config index) [t] =
      footprint config index t >>= fun size =>
        pure (if config.maxWidth < size then [t.identity] else []) := by
    simp only [classify, List.mapM_cons, List.mapM_nil, bind_assoc, pure_bind]
    refine bind_congr fun size => ?_
    by_cases hwide : config.maxWidth < size <;> simp [hwide, List.eraseDups_cons]
  rw [hclassify]
  cases hsize : (footprint config index t).run memo with
  | mk answer later =>
    cases answer with
    | error cause =>
      rw [run_bind_error hsize]
      rfl
    | ok size =>
      rw [run_bind_ok hsize]
      rfl

end Sizing

/-- A struct with one more field is at least as large as without it, provided that the field takes
space: whether or not the alignments are powers of two, and whether the new struct stands in for the
old one or beside it. What was wide stays wide. -/
theorem appended_field_never_shrinks (config : Config) (index index' : Index) (t t' : TypeDef)
    (hswapped : index.Swapped index' t t') (field : Field)
    (hfields : t'.fields = t.fields ++ [field]) (size : Int)
    (hsize : ((Sizing.footprint config index t).run []).1 = .ok size) (extra : Int)
    (hextra : ((Sizing.sizeof config index' field.type).run []).1 = .ok extra)
    (hpos : 1 ≤ extra) :
    (∃ size', ((Sizing.footprint config index' t').run []).1 = .ok size' ∧ size ≤ size') ∧
      (((classify config (Sizing.footprint config index) [t]).run []).1 = .ok [t.identity] →
        ((classify config (Sizing.footprint config index') [t']).run []).1 =
          .ok [t'.identity]) := by
  obtain ⟨layout, hlayout, rfl⟩ := Sizing.footprint_eq_ok_iff_put.mp hsize
  obtain ⟨last, hlast, rfl⟩ := Sizing.layout?_of_sizeof hextra (by omega)
  obtain ⟨layouts, haligned, rfl, hnew⟩ := hswapped.layout?_append hfields hlayout hlast
  have hlastAligned : last.Aligned config :=
    TypeRef.aligned_layout? (fun _ _ _ => Index.aligned_layout?) hlast
  have hle := Layout.size_ofFields_le_append haligned hlastAligned hpos
  have hsize' := Sizing.footprint_eq_ok_iff_put.mpr ⟨_, hnew, rfl⟩
  refine ⟨⟨_, hsize', hle⟩, fun hwide => ?_⟩
  rw [Sizing.run_classify_singleton, hsize] at hwide
  rw [Sizing.run_classify_singleton, hsize']
  have hlt : config.maxWidth < (Layout.ofFields layouts).size := by
    by_contra hnarrow
    simp [Except.map, hnarrow] at hwide
  simp [Except.map, Int.lt_of_lt_of_le hlt hle]

def raggedStruct (behind : List Field) : TypeDef where
  identity := "Ragged"
  name := "Ragged"
  fields := ⟨"head", .scalar { name := "ragged", size := 7, align := 3 }⟩ :: behind

def raggedIndex (size : Int) (behind : List Field) : Index where
  definitions := [raggedStruct behind,
    { identity := "Cell", name := "Cell",
      fields := [⟨"only", .scalar { name := "cell", size := size, align := 4 }⟩] }]

def cellField : Field :=
  ⟨"tail", .named "Cell" "Cell"⟩

theorem swapped_ragged (size : Int) :
    (raggedIndex size []).Swapped (raggedIndex size [cellField]) (raggedStruct [])
      (raggedStruct [cellField]) where
  place _ := rfl
  same identity hne := by
    have hne : "Ragged" ≠ identity := Ne.symm hne
    simp [raggedIndex, raggedStruct, Index.find?, hne]
  held u hu := by cases hu; rfl

theorem appended_field_never_shrinks_ragged :
    ((Sizing.footprint { maxWidth := 8 } (raggedIndex 1 []) (raggedStruct [])).run []).1 = .ok 9 ∧
    ((Sizing.footprint { maxWidth := 8 } (raggedIndex 1 [cellField])
      (raggedStruct [cellField])).run []).1 = .ok 12 ∧
    (∃ size', ((Sizing.footprint { maxWidth := 8 } (raggedIndex 1 [cellField])
      (raggedStruct [cellField])).run []).1 = .ok size' ∧ 9 ≤ size') ∧
    ((classify { maxWidth := 8 } (Sizing.footprint { maxWidth := 8 } (raggedIndex 1 [cellField]))
      [raggedStruct [cellField]]).run []).1 = .ok ["Ragged"] := by
  obtain ⟨hsize, hwide⟩ := appended_field_never_shrinks { maxWidth := 8 } _ _ _ _
    (swapped_ragged 1) cellField rfl 9 (by decide +kernel) 4 (by decide +kernel) (by decide)
  exact ⟨by decide +kernel, by decide +kernel, hsize, hwide (by decide +kernel)⟩

/-- A field without a size can make the struct smaller. -/
example : ((Sizing.footprint {} (raggedIndex 0 [cellField])
    (raggedStruct [cellField])).run []).1 = .ok 8 := by
  decide +kernel

end CopyLint
