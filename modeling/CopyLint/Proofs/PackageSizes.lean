import CopyLint.Analysis
import CopyLint.Document.Writer
import CopyLint.Proofs.LoadedPackage

/-! The sizes that an analysis computes. In a loaded package every definition has a size and no size
is negative, so an analysis of loaded packages gives a result, and the result is known from the
recursive layouts alone. -/
namespace CopyLint

variable {config : Config}

/-! Sizes are not negative. -/

namespace Layout

theorem nonneg_foldl_place {fields : List Layout}
    (haligned : ∀ field ∈ fields, field.Aligned config) (hsize : ∀ field ∈ fields, 0 ≤ field.size)
    {sofar : Layout} (hsofar : 0 ≤ sofar.size) :
    0 ≤ (fields.foldl place sofar).size := by
  induction fields generalizing sofar with
  | nil => exact hsofar
  | cons field rest ih =>
    rw [List.forall_mem_cons] at haligned hsize
    apply ih haligned.2 hsize.2
    have hpadded := le_roundUp sofar.size haligned.1.1
    have hfield := hsize.1
    unfold place
    dsimp only
    omega

theorem nonneg_ofFields {fields : List Layout} (haligned : ∀ field ∈ fields, field.Aligned config)
    (hsize : ∀ field ∈ fields, 0 ≤ field.size) : 0 ≤ (ofFields fields).size := by
  have hplaced : 0 ≤ (fields.foldl place ⟨0, 1⟩).size :=
    nonneg_foldl_place haligned hsize (Int.le_refl 0)
  have hone := (aligned_foldl_place haligned (aligned_empty config)).1
  exact Int.le_trans hplaced (le_roundUp _ hone)

theorem nonneg_ofElements {elem : Layout} (haligned : elem.Aligned config) (hsize : 0 ≤ elem.size)
    (length : Int) : 0 ≤ (ofElements elem length).size := by
  unfold ofElements
  dsimp only
  split
  · exact Int.le_refl 0
  · have hpadded := le_roundUp elem.size haligned.1
    have hstrides : 0 ≤ roundUp elem.size elem.align * (length - 1) :=
      Int.mul_nonneg (by omega) (by omega)
    omega

end Layout

theorem Scalar.nonneg_bytes {s : Scalar} (hsize : 0 ≤ s.size) (hwords : 0 ≤ s.words)
    (config : Config) : 0 ≤ s.bytes config.wordSize := by
  have hword := Int.le_of_lt config.wordSize_pos
  exact Int.add_nonneg hsize (Int.mul_nonneg hwords hword)

theorem TypeRef.nonneg_layout? {index : Index} {ref : TypeRef} (hvalid : ref.Valid)
    (hinner : ∀ reference, ref.embedded = some reference →
      ∀ layout, index.layout? config reference.1 = some layout → 0 ≤ layout.size)
    {layout : Layout} (h : ref.layout? config (index.layout? config) = some layout) :
    0 ≤ layout.size := by
  induction ref generalizing layout with
  | scalar s =>
    cases h
    exact s.nonneg_bytes hvalid.1 hvalid.2.2 config
  | named identity name => exact hinner (identity, name) rfl layout h
  | pointer | rawPointer =>
    cases h
    exact Int.le_of_lt config.wordSize_pos
  | array elem length ih =>
    obtain ⟨found, hfound, rfl⟩ := Option.map_eq_some_iff.mp h
    have haligned : found.Aligned config :=
      aligned_layout? (fun _ _ _ hlayout => Index.aligned_layout? hlayout) hfound
    exact Layout.nonneg_ofElements haligned (ih hvalid.1 hinner hfound) length
  | unsupported => cases h

theorem Index.nonneg_layout? {index : Index} (hvalid : ∀ t ∈ index.definitions, t.Valid)
    {identity : String} {layout : Layout} (h : index.layout? config identity = some layout) :
    0 ≤ layout.size := by
  refine layout?_induction (P := fun _ layout => 0 ≤ layout.size) ?_ h
  intro identity t fields hfind hfields hinner
  have hfield : ∀ layout ∈ fields, ∃ field ∈ t.fields,
      field.type.layout? config (index.layout? config) = some layout :=
    mem_of_mapM_eq_some hfields
  apply Layout.nonneg_ofFields
  · intro layout hmem
    obtain ⟨field, _, hlayout⟩ := hfield layout hmem
    exact TypeRef.aligned_layout? (fun _ _ _ hfound => aligned_layout? hfound) hlayout
  · intro layout hmem
    obtain ⟨field, hfield, hlayout⟩ := hfield layout hmem
    apply TypeRef.nonneg_layout? (hvalid t (mem_of_find? hfind) field hfield) _ hlayout
    intro reference hreference
    exact hinner reference (mem_references.mpr ⟨field, hfield, hreference⟩)

/-- The size of the recursive layout, for a definition that has one. -/
def Index.structSize (config : Config) (index : Index) (identity : String) : Int :=
  ((index.layout? config identity).map (·.size)).getD 0

theorem Index.structSize_of_layout? {index : Index} {identity : String} {layout : Layout}
    (h : index.layout? config identity = some layout) :
    index.structSize config identity = layout.size := by
  simp [structSize, h]

/-! Runs over the definitions of a package, with one memo for all of them. -/

namespace Sizing

variable {α β : Type} {inv : Memo → Prop} {f : α → Sizing β} {as : List α}

theorem yields_mapM_answers {answer : α → Except LayoutError β}
    (h : ∀ a ∈ as, Yields inv (f a) (answer a)) : Yields inv (as.mapM f) (as.mapM answer) := by
  induction as with
  | nil => exact yields_pure []
  | cons a rest ih =>
    rw [List.forall_mem_cons] at h
    obtain ⟨hfirst, hrest⟩ := h
    have hrest := ih hrest
    rw [List.mapM_cons, List.mapM_cons]
    cases hanswer : answer a with
    | error cause =>
      rw [hanswer] at hfirst
      exact hfirst.bind_error _
    | ok b =>
      rw [hanswer] at hfirst
      refine hfirst.bind ?_
      cases hothers : rest.mapM answer with
      | error cause =>
        rw [hothers] at hrest
        exact hrest.bind_error _
      | ok others =>
        rw [hothers] at hrest
        exact hrest.bind (yields_pure _)

theorem yields_mapM {g : α → β} (h : ∀ a ∈ as, Yields inv (f a) (.ok (g a))) :
    Yields inv (as.mapM f) (.ok (as.map g)) := by
  have hanswers := yields_mapM_answers h
  rwa [mapM_eq_ok_map fun _ _ => rfl] at hanswers

end Sizing

namespace Package

variable {p : Package} {t : TypeDef}

theorem mem_definitions_of_mem_types (h : t ∈ p.types) : t ∈ p.index.definitions :=
  mem_index_iff.mpr (List.mem_append_left p.imported h)

theorem Sound.nodup (h : p.Sound) : ((p.types ++ p.imported).map (·.identity)).Nodup :=
  (check_eq_ok_iff.mp h.checked).1

theorem Sound.find? (h : p.Sound) (hmem : t ∈ p.index.definitions) :
    p.index.find? t.identity = some t :=
  Index.find?_of_mem (nodup_identities_index h.nodup) hmem

theorem Sound.exists_layout (h : p.Sound) (config : Config) (hmem : t ∈ p.index.definitions) :
    ∃ layout, p.index.layout? config t.identity = some layout := by
  apply Option.isSome_iff_exists.mp
  exact (check_eq_ok_iff_layouts config h.valid.supported h.nodup).mp h.checked t hmem

theorem Sound.nonneg_structSize (h : p.Sound) (config : Config) (hmem : t ∈ p.index.definitions) :
    0 ≤ p.index.structSize config t.identity := by
  obtain ⟨layout, hlayout⟩ := h.exists_layout config hmem
  rw [Index.structSize_of_layout? hlayout]
  exact Index.nonneg_layout? (fun u hu => h.valid u (mem_index_iff.mp hu)) hlayout

theorem Sound.yields_footprint (h : p.Sound) (config : Config) (hmem : t ∈ p.index.definitions) :
    Sizing.Yields (Memo.Correct config p.index) (Sizing.footprint config p.index t)
      (.ok (p.index.structSize config t.identity)) := by
  obtain ⟨layout, hlayout⟩ := h.exists_layout config hmem
  have hyields : Sizing.Yields (Memo.Correct config p.index)
      (Sizing.footprint config p.index t) _ := Sizing.yields_footprint (h.find? hmem)
  unfold Index.layoutOrFailure at hyields
  rw [hlayout] at hyields
  rw [Index.structSize_of_layout? hlayout]
  exact hyields

theorem Sound.run_footprints (h : p.Sound) (config : Config) :
    ((p.types.mapM (Sizing.footprint config p.index)).run []).1 =
      .ok (p.types.map fun t => p.index.structSize config t.identity) := by
  refine (Sizing.yields_mapM (fun t hmem => ?_) [] (Memo.correct_nil config p.index)).1
  exact h.yields_footprint config (mem_definitions_of_mem_types hmem)

theorem Sound.run_mapM (h : p.Sound) (config : Config) {α : Type} (f : TypeDef → Int → α) :
    ((p.types.mapM fun t => do
      let size ← Sizing.footprint config p.index t
      pure (f t size)).run []).1 =
      .ok (p.types.map fun t => f t (p.index.structSize config t.identity)) := by
  refine (Sizing.yields_mapM (fun t hmem => ?_) [] (Memo.correct_nil config p.index)).1
  have hfootprint := h.yields_footprint config (mem_definitions_of_mem_types hmem)
  exact hfootprint.bind (Sizing.yields_pure _)

def wideIdentities (config : Config) (p : Package) : List String :=
  ((p.types.filter fun t => config.maxWidth < p.index.structSize config t.identity).map
    (·.identity)).eraseDups

def sites (config : Config) (p : Package) : List CopySite :=
  copySites (p.wideIdentities config) p.signatures

theorem Sound.classify_eq (h : p.Sound) (config : Config) :
    ((classify config (Sizing.footprint config p.index) p.types).run []).1 =
      .ok (p.wideIdentities config) := by
  have hsizes := h.run_mapM config fun t size => (t.identity, size)
  unfold classify
  rw [Sizing.run_bind_ok (Prod.ext hsizes rfl)]
  unfold wideIdentities
  rw [List.filter_map, List.map_map]
  rfl

theorem Sound.inspect_eq (h : p.Sound) (config : Config) :
    p.inspect config = .ok ⟨p.wideIdentities config, p.sites config⟩ := by
  unfold inspect
  rw [h.classify_eq config]
  rfl

def row (config : Config) (p : Package) (t : TypeDef) (size : Int) : FootprintRow :=
  ⟨p.name, t.name, t.identity, size, config.maxWidth < size⟩

def rows (config : Config) (p : Package) : List FootprintRow :=
  p.types.map fun t => p.row config t (p.index.structSize config t.identity)

theorem Sound.footprintRows_eq (h : p.Sound) (config : Config) :
    p.footprintRows config = .ok (p.rows config) :=
  h.run_mapM config (p.row config)

theorem Sound.nonneg_of_mem_rows (h : p.Sound) {row : FootprintRow} (hrow : row ∈ p.rows config) :
    0 ≤ row.footprint := by
  obtain ⟨t, hmem, rfl⟩ := List.mem_map.mp hrow
  exact h.nonneg_structSize config (mem_definitions_of_mem_types hmem)

end Package

theorem analyze_eq {packages : List Package} (h : ∀ p ∈ packages, p.Sound) (config : Config) :
    analyze config packages =
      .ok ⟨CopySite.sorted (packages.flatMap (Package.sites config)), packages.length⟩ := by
  unfold analyze
  rw [mapM_eq_ok_map fun p hmem => (h p hmem).inspect_eq config]
  simp [bind, Except.bind, pure, Except.pure, List.flatMap_map]

theorem footprintTable_eq {packages : List Package} (h : ∀ p ∈ packages, p.Sound)
    (config : Config) : footprintTable config packages =
      .ok ((packages.flatMap (Package.rows config)).mergeSort FootprintRow.le) := by
  unfold footprintTable
  rw [mapM_eq_ok_map fun p hmem => (h p hmem).footprintRows_eq config]
  rfl

/-- The check of a package and the footprints of its definitions agree. Therefore a loaded package
can be analysed, and no footprint is negative. -/
theorem check_iff_footprints_and_analysis_succeeds (config : Config) :
    (∀ p : Package, ((p.types ++ p.imported).map (·.identity)).Nodup → p.Supported →
      (p.check = .ok () ↔ ∀ t ∈ p.index.definitions,
        ∃ size, ((Sizing.footprint config p.index t).run []).1 = .ok size)) ∧
    ∀ source v packages, loadPackages source v = .ok packages →
      (∀ p ∈ packages, ∃ found, p.inspect config = .ok found) ∧
      (∃ analysis, analyze config packages = .ok analysis) ∧
      (∃ rows, footprintTable config packages = .ok rows ∧ ∀ row ∈ rows, 0 ≤ row.footprint) ∧
      ∀ p ∈ packages, ∃ sizes,
        ((p.types.mapM (Sizing.footprint config p.index)).run []).1 = .ok sizes ∧
          ∀ size ∈ sizes, 0 ≤ size := by
  constructor
  · intro p hnodup hsupported
    rw [Package.check_eq_ok_iff_layouts config hsupported hnodup]
    refine forall₂_congr fun t hmem => ?_
    have hstored := Index.find?_of_mem (Package.nodup_identities_index hnodup) hmem
    exact (Sizing.exists_footprint_iff hstored).symm
  · intro source v packages hload
    have hsound : ∀ p ∈ packages, p.Sound := fun p => sound_of_loadPackages hload
    refine ⟨fun p hmem => ⟨_, (hsound p hmem).inspect_eq config⟩, ⟨_, analyze_eq hsound config⟩,
      ⟨_, footprintTable_eq hsound config, ?_⟩, ?_⟩
    · intro row hrow
      rw [List.mem_mergeSort, List.mem_flatMap] at hrow
      obtain ⟨p, hmem, hrow⟩ := hrow
      exact (hsound p hmem).nonneg_of_mem_rows hrow
    · intro p hmem
      refine ⟨_, (hsound p hmem).run_footprints config, ?_⟩
      intro size hsize
      obtain ⟨t, ht, rfl⟩ := List.mem_map.mp hsize
      exact (hsound p hmem).nonneg_structSize config (Package.mem_definitions_of_mem_types ht)

def importingPackage (elem : TypeRef) : Package where
  name := "p"
  types := [⟨"p.Frame", "Frame", [⟨"parts", .array (.named "q.Part" "Part") 3⟩]⟩]
  imported := [⟨"q.Part", "Part", [⟨"a", .scalar { name := "int64", size := 8 }⟩,
    ⟨"b", .scalar { name := "byte", size := 1 }⟩, ⟨"rest", .array elem 0⟩]⟩,
    ⟨"q.Unit", "Unit", []⟩]

/-- A cycle that leads through an import and an empty array is found by both, and without it the
package can be loaded and analysed. -/
theorem check_iff_footprints_and_analysis_succeeds_imports :
    (importingPackage (.named "p.Frame" "Frame")).check ≠ .ok () ∧
    loadPackages "" (Document.ofPackages [importingPackage (.named "q.Unit" "Unit")]) =
      .ok [importingPackage (.named "q.Unit" "Unit")] ∧
    ∃ rows, footprintTable {} [importingPackage (.named "q.Unit" "Unit")] = .ok rows ∧
      ∀ row ∈ rows, 0 ≤ row.footprint := by
  constructor
  · intro hcheck
    have hagree := (check_iff_footprints_and_analysis_succeeds {}).1
      (importingPackage (.named "p.Frame" "Frame")) (by decide) (by decide)
    obtain ⟨size, hsize⟩ := hagree.mp hcheck _ List.mem_cons_self
    have hfailed : ((Sizing.footprint {} (importingPackage (.named "p.Frame" "Frame")).index
        ⟨"p.Frame", "Frame", [⟨"parts", .array (.named "q.Part" "Part") 3⟩]⟩).run []).1 =
          .error (.containsItself "Frame") := by
      decide +kernel
    cases hfailed.symm.trans hsize
  · have hcheck : (importingPackage (.named "q.Unit" "Unit")).check = .ok () :=
      (Package.check_eq_ok_iff_layouts {} (by decide) (by decide)).mpr (by decide)
    have hload : loadPackages "" (Document.ofPackages [importingPackage (.named "q.Unit" "Unit")]) =
        .ok [importingPackage (.named "q.Unit" "Unit")] :=
      loadPackages_eq_ok rfl (List.forall_mem_singleton.mpr hcheck) ""
    exact ⟨hload, ((check_iff_footprints_and_analysis_succeeds {}).2 _ _ _ hload).2.2.1⟩

end CopyLint
