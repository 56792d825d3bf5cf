import CopyLint.Proofs.ConfigOrder
import CopyLint.Proofs.PackageOrder

/-! The analysis and the table of sizes, for any packages at all. Both ask for the footprints of the
same definitions in the same order, so they fail together, and a struct is wide for one of them if
it is wide for the other. -/
namespace CopyLint

/-! What each step of a run adds to its answer can be added at the end. -/

namespace Sizing

variable {α β : Type}

theorem run_map (f : α → β) (c : Sizing α) (memo : Memo) :
    ((f <$> c).run memo).1 = f <$> (c.run memo).1 := by
  rw [ExceptT.run_map]
  rfl

theorem length_of_mapM {c : α → Sizing β} {as : List α} {bs : List β} {memo : Memo}
    (h : ((as.mapM c).run memo).1 = .ok bs) : bs.length = as.length := by
  induction as generalizing memo bs with
  | nil =>
    cases h
    rfl
  | cons a rest ih =>
    rw [List.mapM_cons] at h
    cases hfirst : (c a).run memo with
    | mk answer later =>
      cases answer with
      | error cause =>
        rw [run_bind_error hfirst] at h
        cases h
      | ok b =>
        rw [run_bind_ok hfirst, bind_pure_comp, run_map, map_eq_ok_iff] at h
        obtain ⟨others, hothers, rfl⟩ := h
        rw [List.length_cons, List.length_cons, ih hothers]

end Sizing

namespace Package

variable {config : Config} {p : Package}

/-- The footprints of the package's own definitions, in a run with one memo. -/
def footprints (config : Config) (p : Package) : Except LayoutError (List Int) :=
  ((p.types.mapM (Sizing.footprint config p.index)).run []).1

theorem footprintRows_eq_map (config : Config) (p : Package) :
    p.footprintRows config = p.types.zipWith (p.row config) <$> p.footprints config := by
  have hrow : p.footprintRows config =
      ((p.types.mapM fun t => p.row config t <$> Sizing.footprint config p.index t).run []).1 := by
    simp only [footprintRows, ← bind_pure_comp]
    rfl
  rw [hrow, mapM_map_eq, Sizing.run_map]
  rfl

def measured (t : TypeDef) (size : Int) : String × Int :=
  (t.identity, size)

def inspection (config : Config) (p : Package) (sizes : List Int) : Inspection :=
  let wide := (((p.types.zipWith measured sizes).filter fun (_, size) =>
    config.maxWidth < size).map (·.1)).eraseDups
  ⟨wide, copySites wide p.signatures⟩

theorem inspect_eq_map (config : Config) (p : Package) :
    p.inspect config = p.inspection config <$> p.footprints config := by
  have hclassify : classify config (Sizing.footprint config p.index) p.types =
      (fun sizes =>
          ((sizes.filter fun (_, size) => config.maxWidth < size).map (·.1)).eraseDups) <$>
        p.types.mapM fun t => measured t <$> Sizing.footprint config p.index t := by
    simp only [classify, ← bind_pure_comp]
    rfl
  unfold inspect
  rw [hclassify, mapM_map_eq, Sizing.run_map, Sizing.run_map]
  unfold footprints
  cases ((p.types.mapM (Sizing.footprint config p.index)).run []).1 with
  | error cause => rfl
  | ok sizes => rfl

def rowsFound (config : Config) (p : Package) : List FootprintRow :=
  match p.footprintRows config with
  | .ok rows => rows
  | .error _ => []

end Package

/-! What the table and the analysis say of one package. -/

/-- The type is the struct of this identity itself, not a pointer to it or an array of it. -/
def TypeRef.IsStruct (identity : String) : TypeRef → Prop
  | .named found _ => found = identity
  | _ => False

instance (identity : String) : DecidablePred (TypeRef.IsStruct identity)
  | .named found _ => inferInstanceAs (Decidable (found = identity))
  | .scalar _ | .pointer _ _ | .rawPointer _ | .array _ _ | .unsupported => .isFalse id

theorem TypeRef.isWide_eq_true_iff {wide : List String} {ref : TypeRef} :
    ref.isWide wide = true ↔ ∃ identity ∈ wide, ref.IsStruct identity := by
  cases ref <;> simp [isWide, IsStruct]

theorem map_snd_placed (place : Nat → Place) (params : List Param) :
    (placed place params).map (·.2) = params := by
  rw [placed, List.map_map]
  exact List.zipIdx_map_fst 0 params

theorem Signature.map_places (s : Signature) : s.places.map (·.2.type) = s.spelled := by
  have hparams : s.places.map (·.2) = s.receiver.toList ++ s.params ++ s.results := by
    simp [places, map_snd_placed, Function.comp_def]
  rw [spelled, ← hparams, List.map_map]
  rfl

theorem Signature.offending_ne_nil_iff {wide : List String} {s : Signature} :
    s.offending wide ≠ [] ↔ ∃ ref ∈ s.spelled, ref.isWide wide = true := by
  rw [offending_eq_widePlaces, ← map_places]
  simp [widePlaces, List.filter_eq_nil_iff]

namespace Package

variable {config : Config} {p : Package} {sizes : List Int}

/-- There is a row for each of the package's own definitions, the wide identities are those of the
wide rows, and the signatures with a site are those that copy the struct of a wide row. -/
structure Agrees (config : Config) (p : Package) (rows : List FootprintRow) (found : Inspection) :
    Prop where
  own : rows.map (fun row => (row.package, row.name, row.identity)) =
    p.types.map fun t => (p.name, t.name, t.identity)
  exceeds : ∀ row ∈ rows, row.wide = true ↔ config.maxWidth < row.footprint
  wide : ∀ identity, identity ∈ found.wide ↔
    ∃ row ∈ rows, row.wide = true ∧ row.identity = identity
  reported : found.sites.map (·.signature) = p.signatures.filter fun s =>
    ∃ row ∈ rows, row.wide = true ∧ ∃ ref ∈ s.spelled, ref.IsStruct row.identity

theorem mem_zipWith_row {row : FootprintRow} :
    row ∈ p.types.zipWith (p.row config) sizes ↔
      ∃ t size, (t, size) ∈ p.types.zip sizes ∧ p.row config t size = row := by
  simp [← List.map_uncurry_zip_eq_zipWith]

theorem mem_wide_inspection {identity : String} :
    identity ∈ (p.inspection config sizes).wide ↔
      ∃ row ∈ p.types.zipWith (p.row config) sizes, row.wide = true ∧ row.identity = identity := by
  simp only [inspection, ← List.map_uncurry_zip_eq_zipWith, List.mem_eraseDups,
    List.mem_map, List.mem_filter, decide_eq_true_eq]
  constructor
  · rintro ⟨_, ⟨⟨⟨t, size⟩, hmem, rfl⟩, hwide⟩, rfl⟩
    exact ⟨_, ⟨_, hmem, rfl⟩, decide_eq_true hwide, rfl⟩
  · rintro ⟨_, ⟨⟨t, size⟩, hmem, rfl⟩, hwide, rfl⟩
    exact ⟨_, ⟨⟨_, hmem, rfl⟩, of_decide_eq_true hwide⟩, rfl⟩

theorem agrees_of_footprints (h : p.footprints config = .ok sizes) :
    p.Agrees config (p.types.zipWith (p.row config) sizes) (p.inspection config sizes) where
  own := by
    have hle : p.types.length ≤ sizes.length := (Sizing.length_of_mapM h).ge
    have hkeys : (p.types.zipWith (p.row config) sizes).map
        (fun row => (row.package, row.name, row.identity)) =
          ((p.types.zip sizes).map (·.1)).map fun t => (p.name, t.name, t.identity) := by
      simp [row, ← List.map_uncurry_zip_eq_zipWith, Function.comp_def]
    rw [hkeys, List.map_fst_zip hle]
  exceeds := by
    intro found hfound
    obtain ⟨t, size, -, rfl⟩ := mem_zipWith_row.mp hfound
    simp [row]
  wide := fun identity => mem_wide_inspection
  reported := by
    change (copySites (p.inspection config sizes).wide p.signatures).map (·.signature) = _
    rw [map_signature_copySites]
    apply List.filter_congr
    intro s _
    rw [decide_eq_decide, Signature.offending_ne_nil_iff]
    simp only [TypeRef.isWide_eq_true_iff, mem_wide_inspection]
    constructor
    · rintro ⟨ref, href, _, ⟨row, hrow, hwide, rfl⟩, hstruct⟩
      exact ⟨row, hrow, hwide, ref, href, hstruct⟩
    · rintro ⟨row, hrow, hwide, ref, href, hstruct⟩
      exact ⟨ref, href, _, ⟨row, hrow, hwide, rfl⟩, hstruct⟩

theorem rowsFound_of_footprints (h : p.footprints config = .ok sizes) :
    p.footprintRows config = .ok (p.rowsFound config) ∧
      p.rowsFound config = p.types.zipWith (p.row config) sizes := by
  have hrows : p.footprintRows config = .ok (p.types.zipWith (p.row config) sizes) := by
    rw [footprintRows_eq_map, h]
    rfl
  simp [rowsFound, hrows]

theorem inspected_of_footprints (h : p.footprints config = .ok sizes) :
    p.inspect config = .ok (p.inspected config) ∧
      p.inspected config = p.inspection config sizes := by
  have hinspect : p.inspect config = .ok (p.inspection config sizes) := by
    rw [inspect_eq_map, h]
    rfl
  simp [inspected, hinspect]

end Package

/-! The order of the table. -/

namespace FootprintRow

def KeyLe (a b : String × String) : Prop :=
  a.1 < b.1 ∨ a.1 = b.1 ∧ a.2 ≤ b.2

theorem isOrder_keyLe : IsOrder KeyLe :=
  isOrder_text (fun hab hbc => String.le_trans hab hbc) (fun a b => String.le_total a.2 b.2)
    fun hpackage hab hba => Prod.ext hpackage (String.le_antisymm hab hba)

/-- The rows by package and name, where rows that agree in both keep their order. -/
abbrev StableSort : List FootprintRow → List FootprintRow → Prop :=
  CopyLint.StableSort (fun row => (row.package, row.name)) KeyLe

theorem le_eq_true_iff (a b : FootprintRow) :
    a.le b = true ↔ KeyLe (a.package, a.name) (b.package, b.name) := by
  unfold le KeyLe
  by_cases h : a.package = b.package <;> simp [h]

theorem stableSort_mergeSort (found : List FootprintRow) :
    StableSort found (found.mergeSort le) :=
  isOrder_keyLe.stableSort_mergeSort le_eq_true_iff found

end FootprintRow

section

variable {config : Config} {packages : List Package}

theorem footprintTable_eq_map (config : Config) (packages : List Package) :
    footprintTable config packages = (fun rows => rows.flatten.mergeSort FootprintRow.le) <$>
      packages.mapM (Package.footprintRows config) := by
  simp only [footprintTable, ← bind_pure_comp]

theorem footprintTable_eq_error_iff {cause : LayoutError} :
    footprintTable config packages = .error cause ↔
      packages.mapM (Package.footprints config) = .error cause := by
  rw [footprintTable_eq_map, map_eq_error_iff, funext (Package.footprintRows_eq_map config),
    mapM_map_eq, map_eq_error_iff]

theorem analyze_eq_error_iff {cause : LayoutError} :
    analyze config packages = .error cause ↔
      packages.mapM (Package.footprints config) = .error cause := by
  have hmap : analyze config packages =
      (fun found => (⟨CopySite.sorted (found.flatMap (·.sites)), packages.length⟩ : Analysis)) <$>
        packages.mapM (Package.inspect config) := by
    simp only [analyze, ← bind_pure_comp]
  rw [hmap, map_eq_error_iff, funext (Package.inspect_eq_map config), mapM_map_eq,
    map_eq_error_iff]

theorem footprints_of_footprintTable {table : List FootprintRow}
    (h : footprintTable config packages = .ok table) :
    ∀ p ∈ packages, ∃ sizes, p.footprints config = .ok sizes := by
  rw [footprintTable_eq_map, map_eq_ok_iff] at h
  obtain ⟨rows, hrows, -⟩ := h
  intro p hmem
  obtain ⟨found, hfound⟩ := exists_of_mapM_eq_ok hrows p hmem
  rw [Package.footprintRows_eq_map, map_eq_ok_iff] at hfound
  obtain ⟨sizes, hsizes, -⟩ := hfound
  exact ⟨sizes, hsizes⟩

theorem footprintTable_of_footprints
    (h : ∀ p ∈ packages, ∃ sizes, p.footprints config = .ok sizes) :
    footprintTable config packages =
      .ok ((packages.flatMap (Package.rowsFound config)).mergeSort FootprintRow.le) := by
  have hrows : ∀ p ∈ packages, p.footprintRows config = .ok (p.rowsFound config) := by
    intro p hmem
    obtain ⟨sizes, hsizes⟩ := h p hmem
    exact (Package.rowsFound_of_footprints hsizes).1
  rw [footprintTable_eq_map, mapM_eq_ok_map hrows]
  rfl

end

/-- The table of sizes and the analysis fail together and for the same cause. Otherwise they agree
on every package about what is wide, the signatures with a site are those that copy the struct of a
wide row, and the table has the rows of all packages in order. -/
theorem table_agrees_with_analysis (config : Config) (packages : List Package) :
    (∀ cause, footprintTable config packages = .error cause ↔
      analyze config packages = .error cause) ∧
    ∀ table, footprintTable config packages = .ok table →
      FootprintRow.StableSort (packages.flatMap (Package.rowsFound config)) table ∧
      (∃ analysis, analyze config packages = .ok analysis ∧
        CopySite.StableSort (packages.flatMap (Package.sitesFound config)) analysis.sites) ∧
      ∀ p ∈ packages, p.footprintRows config = .ok (p.rowsFound config) ∧
        p.inspect config = .ok (p.inspected config) ∧
        p.Agrees config (p.rowsFound config) (p.inspected config) := by
  constructor
  · intro cause
    rw [footprintTable_eq_error_iff, analyze_eq_error_iff]
  · intro table htable
    have hsizes := footprints_of_footprintTable htable
    have hinspect : ∀ p ∈ packages, ∃ found, p.inspect config = .ok found := by
      intro p hmem
      obtain ⟨sizes, hsizes⟩ := hsizes p hmem
      exact ⟨_, (Package.inspected_of_footprints hsizes).1⟩
    rw [footprintTable_of_footprints hsizes] at htable
    cases htable
    refine ⟨FootprintRow.stableSort_mergeSort _,
      ⟨_, analyze_of_inspect hinspect, CopySite.stableSort_sorted _⟩, ?_⟩
    intro p hmem
    obtain ⟨sizes, hsizes⟩ := hsizes p hmem
    obtain ⟨hrows, hrowsFound⟩ := Package.rowsFound_of_footprints hsizes
    obtain ⟨hfound, hinspected⟩ := Package.inspected_of_footprints hsizes
    refine ⟨hrows, hfound, ?_⟩
    rw [hrowsFound, hinspected]
    exact Package.agrees_of_footprints hsizes

def shadeFunction : Signature where
  name := "Shade"
  position := ⟨"paint.go", 4, 1⟩
  params := [⟨"c", .named "Color" "Color"⟩]

/-- Two definitions share an identity, and the first one decides about both. -/
def paintPackage : Package where
  name := "paint"
  types := [⟨"Color", "Tone", wordFields ["r", "g", "b"]⟩, ⟨"Color", "Color", []⟩]
  signatures := [shadeFunction]

def canvasPackage : Package where
  name := "canvas"
  types := [⟨"Canvas", "Canvas", [⟨"frame", .named "Frame" "Frame"⟩]⟩]

theorem table_agrees_with_analysis_paint_canvas :
    footprintTable {} [paintPackage, canvasPackage] = .error (.unknownType "Frame" "Frame") ∧
    analyze {} [paintPackage, canvasPackage] = .error (.unknownType "Frame" "Frame") ∧
    (∃ table, footprintTable {} [paintPackage] = .ok table ∧
      FootprintRow.StableSort [⟨"paint", "Tone", "Color", 24, true⟩,
        ⟨"paint", "Color", "Color", 24, true⟩] table) ∧
    paintPackage.inspect {} = .ok ⟨["Color"], [⟨shadeFunction, ["parameter 'c' at index 0"]⟩]⟩ ∧
    paintPackage.Agrees {} [⟨"paint", "Tone", "Color", 24, true⟩,
      ⟨"paint", "Color", "Color", 24, true⟩]
      ⟨["Color"], [⟨shadeFunction, ["parameter 'c' at index 0"]⟩]⟩ := by
  have hfailed : footprintTable {} [paintPackage, canvasPackage] =
      .error (.unknownType "Frame" "Frame") := by
    decide +kernel
  have hsizes : paintPackage.footprints {} = .ok [24, 24] := by
    decide +kernel
  have hrows : paintPackage.rowsFound {} = [⟨"paint", "Tone", "Color", 24, true⟩,
      ⟨"paint", "Color", "Color", 24, true⟩] := by
    decide +kernel
  have hinspected : paintPackage.inspected {} =
      ⟨["Color"], [⟨shadeFunction, ["parameter 'c' at index 0"]⟩]⟩ := by
    decide +kernel
  have htable := footprintTable_of_footprints (List.forall_mem_singleton.mpr ⟨_, hsizes⟩)
  obtain ⟨hsort, -, hagrees⟩ := (table_agrees_with_analysis {} [paintPackage]).2 _ htable
  obtain ⟨-, hinspect, hagrees⟩ := hagrees paintPackage List.mem_cons_self
  rw [List.flatMap_singleton, hrows] at hsort
  rw [hinspected] at hinspect
  rw [hrows, hinspected] at hagrees
  exact ⟨hfailed, ((table_agrees_with_analysis {} _).1 _).mp hfailed,
    ⟨_, htable, by simpa [hrows] using hsort⟩, hinspect, hagrees⟩

end CopyLint
