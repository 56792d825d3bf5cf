import CopyLint.Proofs.PackageSizes
import CopyLint.Proofs.PositionOrder

/-! The findings of an analysis, told without a memo, a list of wide identities or a sort: which
structs are wide, which places of a signature copy one, and in which order the signatures come. -/
namespace CopyLint

inductive Place where
  | receiver
  | param (index : Nat)
  | result (index : Nat)
  deriving DecidableEq, Repr

def placed (place : Nat → Place) (params : List Param) : List (Place × Param) :=
  params.zipIdx.map fun (param, index) => (place index, param)

/-- The receiver, then the parameters, then the results. -/
def Signature.places (s : Signature) : List (Place × Param) :=
  s.receiver.toList.map (Place.receiver, ·) ++ placed .param s.params ++ placed .result s.results

def TypeRef.structName : TypeRef → String
  | .named _ name => name
  | _ => ""

def Place.describe : Place × Param → String
  | (receiver, _) => "receiver"
  | (param index, p) => Signature.describeParam index p
  | (result index, p) => Signature.describeResult index p.type.structName

namespace Package

/-- One of the package's own definitions, with a layout that exceeds the allowed width. -/
def Wide (config : Config) (p : Package) (identity : String) : Prop :=
  identity ∈ p.types.map (·.identity) ∧
    ∃ layout ∈ p.index.layout? config identity, config.maxWidth < layout.size

instance (config : Config) (p : Package) : DecidablePred (p.Wide config) :=
  fun identity => inferInstanceAs (Decidable (identity ∈ p.types.map (·.identity) ∧
    ∃ layout ∈ p.index.layout? config identity, config.maxWidth < layout.size))

/-- The type is a wide struct itself, not a pointer to one or an array of them. -/
def Copies (config : Config) (p : Package) : TypeRef → Prop
  | .named identity _ => p.Wide config identity
  | _ => False

instance (config : Config) (p : Package) : DecidablePred (p.Copies config)
  | .named identity _ => inferInstanceAs (Decidable (p.Wide config identity))
  | .scalar _ | .pointer _ _ | .rawPointer _ | .array _ _ | .unsupported => .isFalse id

def copied (config : Config) (p : Package) (places : List (Place × Param)) :
    List (Place × Param) :=
  places.filter fun (_, param) => p.Copies config param.type

/-- A site for each signature that copies a wide struct somewhere, in the order of the package. -/
def wideCopies (config : Config) (p : Package) : List CopySite :=
  (p.signatures.filter fun s => p.copied config s.places ≠ []).map fun s =>
    ⟨s, (p.copied config s.places).map Place.describe⟩

end Package

/-! The scan with a list of wide identities. -/

theorem map_filter_eq_filterMap {α β : Type} (p : α → Bool) (f : α → β) (as : List α) :
    (as.filter p).map f = as.filterMap fun a => if p a then some (f a) else none := by
  rw [← List.filterMap_eq_map, List.filterMap_filter]
  rfl

def Package.ListsWide (config : Config) (p : Package) (wide : List String) : Prop :=
  ∀ identity, identity ∈ wide ↔ p.Wide config identity

def widePlaces (wide : List String) (places : List (Place × Param)) : List (Place × Param) :=
  places.filter fun (_, param) => param.type.isWide wide

namespace Signature

variable {config : Config} {p : Package} {wide : List String}

theorem offendingReceiver_eq (wide : List String) (s : Signature) :
    s.offendingReceiver wide =
      (widePlaces wide (s.receiver.toList.map (Place.receiver, ·))).map Place.describe := by
  unfold offendingReceiver widePlaces
  cases s.receiver with
  | none => rfl
  | some receiver => cases hwide : receiver.type.isWide wide <;> simp [hwide, Place.describe]

theorem offendingParams_eq (wide : List String) (s : Signature) :
    s.offendingParams wide = (widePlaces wide (placed .param s.params)).map Place.describe := by
  unfold offendingParams widePlaces placed
  rw [map_filter_eq_filterMap, List.filterMap_map]
  rfl

theorem offendingResults_eq (wide : List String) (s : Signature) :
    s.offendingResults wide = (widePlaces wide (placed .result s.results)).map Place.describe := by
  unfold offendingResults widePlaces placed
  rw [map_filter_eq_filterMap, List.filterMap_map]
  apply List.filterMap_congr
  rintro ⟨⟨name, type⟩, index⟩ _
  cases type with
  | named | scalar | pointer | rawPointer | array | unsupported => rfl

theorem offending_eq_widePlaces (wide : List String) (s : Signature) :
    s.offending wide = (widePlaces wide s.places).map Place.describe := by
  rw [offending, offendingReceiver_eq, offendingParams_eq, offendingResults_eq]
  simp [places, widePlaces]

theorem isWide_eq (hwide : p.ListsWide config wide) (ref : TypeRef) :
    ref.isWide wide = decide (p.Copies config ref) := by
  cases ref with
  | named identity name =>
    rw [Bool.eq_iff_iff, decide_eq_true_iff, TypeRef.isWide, List.contains_iff_mem]
    exact hwide identity
  | scalar | pointer | rawPointer | array | unsupported => rfl

theorem offending_eq (hwide : p.ListsWide config wide) (s : Signature) :
    s.offending wide = (p.copied config s.places).map Place.describe := by
  simp only [offending_eq_widePlaces, widePlaces, Package.copied, isWide_eq hwide]

end Signature

theorem copySites_eq {config : Config} {p : Package} {wide : List String}
    (hwide : p.ListsWide config wide) :
    copySites wide p.signatures = p.wideCopies config := by
  unfold copySites Package.wideCopies
  rw [map_filter_eq_filterMap]
  apply List.filterMap_congr
  intro s _
  rw [s.offending_eq hwide]
  cases p.copied config s.places with
  | nil => rfl
  | cons first rest => rfl

namespace Package

variable {p : Package}

theorem listsWide_wideIdentities {config : Config}
    (hsome : ∀ t ∈ p.types, (p.index.layout? config t.identity).isSome) :
    p.ListsWide config (p.wideIdentities config) := by
  intro identity
  unfold wideIdentities Wide
  simp only [List.mem_eraseDups, List.mem_map, List.mem_filter, decide_eq_true_eq]
  constructor
  · rintro ⟨t, ⟨hmem, hwide⟩, rfl⟩
    obtain ⟨layout, hlayout⟩ := Option.isSome_iff_exists.mp (hsome t hmem)
    rw [Index.structSize_of_layout? hlayout] at hwide
    exact ⟨⟨t, hmem, rfl⟩, layout, hlayout, hwide⟩
  · rintro ⟨⟨t, hmem, rfl⟩, layout, hlayout, hwide⟩
    refine ⟨t, ⟨hmem, ?_⟩, rfl⟩
    rwa [Index.structSize_of_layout? hlayout]

theorem Sound.listsWide_wideIdentities (h : p.Sound) (config : Config) :
    p.ListsWide config (p.wideIdentities config) := by
  apply Package.listsWide_wideIdentities
  intro t hmem
  exact Option.isSome_iff_exists.mpr (h.exists_layout config (mem_definitions_of_mem_types hmem))

theorem Sound.sites_eq (h : p.Sound) (config : Config) : p.sites config = p.wideCopies config :=
  copySites_eq (h.listsWide_wideIdentities config)

end Package

/-- An analysis of loaded packages reports the copies of wide structs, each signature once, in the
one order by position that keeps the order in which signatures at the same position come. -/
theorem analyze_reports_wide_copies (config : Config) (source : String) (v : Value)
    (packages : List Package) (hload : loadPackages source v = .ok packages) :
    ∃ analysis, analyze config packages = .ok analysis ∧
      (∀ sites, CopySite.StableSort (packages.flatMap (Package.wideCopies config)) sites ↔
        analysis.sites = sites) ∧
      (analysis.hasFindings ↔ packages.flatMap (Package.wideCopies config) ≠ []) := by
  have hsound : ∀ p ∈ packages, p.Sound := fun p => sound_of_loadPackages hload
  have hsites : packages.flatMap (Package.sites config) =
      packages.flatMap (Package.wideCopies config) :=
    List.flatMap_congr fun p hmem => (hsound p hmem).sites_eq config
  have hanalyze := analyze_eq hsound config
  rw [hsites] at hanalyze
  refine ⟨_, hanalyze, fun sites => CopySite.stableSort_iff, ?_⟩
  simp only [Analysis.hasFindings, Bool.not_eq_true', List.isEmpty_eq_false_iff,
    CopySite.sorted_eq_nil_iff, ne_eq]

def wordFields (names : List String) : List Field :=
  names.map fun name => ⟨name, .scalar { name := "int64", size := 8 }⟩

def scaleMethod : Signature where
  name := "Scale"
  position := ⟨"shapes.go", 12, 1⟩
  receiver := some ⟨"b", .named "Bigger" "Bigger"⟩
  params := [⟨"x", .named "Big" "Big"⟩, ⟨"y", .named "Bigger" "Bigger"⟩]
  results := [⟨"", .named "Bigger" "Bigger"⟩]

def drawFunction : Signature where
  name := "Draw"
  position := ⟨"shapes.go", 20, 1⟩
  params := [⟨"p", .pointer (.named "Bigger" "Bigger") ""⟩]

def shapesPackage : Package where
  name := "shapes"
  types := [⟨"Big", "Big", wordFields ["a", "b"]⟩, ⟨"Bigger", "Bigger", wordFields ["a", "b", "c"]⟩]
  signatures := [scaleMethod, drawFunction]

def takeFunction : Signature where
  name := "Take"
  position := ⟨"boxes.go", 1, 1⟩
  params := [⟨"w", .named "q.Wide" "Wide"⟩]

def putFunction : Signature where
  name := "Put"
  position := ⟨"boxes.go", 3, 1⟩
  params := [⟨"", .named "Box" "Box"⟩]

def getFunction : Signature where
  name := "Get"
  position := ⟨"boxes.go", 3, 1⟩
  results := [⟨"b", .named "Box" "Box"⟩]

/-- A struct that is wide because of an imported one, whose copies do not count. -/
def boxesPackage : Package where
  name := "boxes"
  types := [⟨"Box", "Box", [⟨"inner", .named "q.Wide" "Wide"⟩]⟩]
  imported := [⟨"q.Wide", "Wide", wordFields ["a", "b", "c"]⟩]
  signatures := [takeFunction, putFunction, getFunction]

theorem analyze_reports_wide_copies_shapes_boxes :
    loadPackages "" (Document.ofPackages [shapesPackage, boxesPackage]) =
      .ok [shapesPackage, boxesPackage] ∧
    ∃ analysis, analyze {} [shapesPackage, boxesPackage] = .ok analysis ∧
      analysis.hasFindings ∧
      analysis.sites = [
        ⟨putFunction, ["parameter at index 0"]⟩,
        ⟨getFunction, ["return value 'Box' at index 0"]⟩,
        ⟨scaleMethod, ["receiver", "parameter 'y' at index 1",
          "return value 'Bigger' at index 0"]⟩] := by
  have hshapes : shapesPackage.check = .ok () :=
    (Package.check_eq_ok_iff_layouts {} (by decide) (by decide)).mpr (by decide)
  have hboxes : boxesPackage.check = .ok () :=
    (Package.check_eq_ok_iff_layouts {} (by decide) (by decide)).mpr (by decide)
  have hload : loadPackages "" (Document.ofPackages [shapesPackage, boxesPackage]) =
      .ok [shapesPackage, boxesPackage] :=
    loadPackages_eq_ok rfl (by simp [hshapes, hboxes]) ""
  have hfound : [shapesPackage, boxesPackage].flatMap (Package.wideCopies {}) = [
      ⟨scaleMethod, ["receiver", "parameter 'y' at index 1", "return value 'Bigger' at index 0"]⟩,
      ⟨putFunction, ["parameter at index 0"]⟩,
      ⟨getFunction, ["return value 'Box' at index 0"]⟩] := by
    decide +kernel
  obtain ⟨analysis, hanalyze, hsites, hfindings⟩ := analyze_reports_wide_copies {} "" _ _ hload
  rw [hfound] at hsites hfindings
  refine ⟨hload, analysis, hanalyze, hfindings.mpr (List.cons_ne_nil _ _), ?_⟩
  rw [(hsites _).mp (CopySite.stableSort_sorted _)]
  have hscale : scaleMethod.position.le putFunction.position = false := by decide
  have hscale' : scaleMethod.position.le getFunction.position = false := by decide
  have hput : putFunction.position.le getFunction.position = true := by decide
  simp [CopySite.sorted, List.mergeSort, hscale, hscale', hput]

end CopyLint
