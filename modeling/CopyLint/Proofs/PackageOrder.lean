import Mathlib.Data.List.Flatten
import CopyLint.Analysis
import CopyLint.Pattern
import CopyLint.Proofs.Findings

/-! Analyses of the same packages in another order, and of some of the packages. A package is
analysed by itself, so only the order of a report ties packages together. -/
namespace CopyLint

namespace Package

def inspected (config : Config) (p : Package) : Inspection :=
  match p.inspect config with
  | .ok found => found
  | .error _ => ⟨[], []⟩

def sitesFound (config : Config) (p : Package) : List CopySite :=
  (p.inspected config).sites

/-- No site of the one package stands where a site of the other does. -/
def Apart (config : Config) (p q : Package) : Prop :=
  ∀ a ∈ p.sitesFound config, ∀ b ∈ q.sitesFound config, a.signature.position ≠ b.signature.position

instance (config : Config) (p q : Package) : Decidable (p.Apart config q) :=
  inferInstanceAs (Decidable (∀ a ∈ p.sitesFound config, ∀ b ∈ q.sitesFound config,
    a.signature.position ≠ b.signature.position))

def Requested (request : Option String) (p : Package) : Prop :=
  ∀ pattern ∈ request, (Pattern.ofRequest pattern).isMatch p.name = true

instance (request : Option String) : DecidablePred (Requested request) := fun p =>
  inferInstanceAs
    (Decidable (∀ pattern ∈ request, (Pattern.ofRequest pattern).isMatch p.name = true))

variable {config : Config} {p q : Package}

theorem inspect_eq_inspected (h : ∃ found, p.inspect config = .ok found) :
    p.inspect config = .ok (p.inspected config) := by
  obtain ⟨found, hfound⟩ := h
  simp [inspected, hfound]

theorem Apart.filter_eq_nil (h : p.Apart config q) (position : Position) :
    (p.sitesFound config).filter (fun site => site.signature.position = position) = [] ∨
      (q.sitesFound config).filter (fun site => site.signature.position = position) = [] := by
  simp only [List.filter_eq_nil_iff, decide_eq_true_eq]
  by_contra hboth
  push Not at hboth
  obtain ⟨⟨a, ha, hposition⟩, b, hb, hposition'⟩ := hboth
  exact h a ha b hb (hposition.trans hposition'.symm)

end Package

theorem analyze_of_inspect {config : Config} {packages : List Package}
    (h : ∀ p ∈ packages, ∃ found, p.inspect config = .ok found) :
    analyze config packages =
      .ok ⟨CopySite.sorted (packages.flatMap (Package.sitesFound config)), packages.length⟩ := by
  unfold analyze
  rw [mapM_eq_ok_map fun p hmem => Package.inspect_eq_inspected (h p hmem)]
  simp only [bind, Except.bind, pure, Except.pure, List.flatMap_map]
  rfl

theorem inspect_of_analyze {config : Config} {packages : List Package} {analysis : Analysis}
    (h : analyze config packages = .ok analysis) :
    ∀ p ∈ packages, ∃ found, p.inspect config = .ok found := by
  cases hmap : packages.mapM (Package.inspect config) with
  | error cause => simp [analyze, hmap, bind, Except.bind] at h
  | ok found => exact exists_of_mapM_eq_ok hmap

theorem selectPackages_eq_ok {request : Option String} {packages selected : List Package}
    (h : selectPackages request packages = .ok selected) :
    selected = packages.filter (Package.Requested request) := by
  cases request with
  | none =>
    cases h
    simp [Package.Requested]
  | some pattern =>
    simp only [selectPackages] at h
    split at h
    · cases h
    · cases h
      simp [Package.Requested]

theorem flatMap_eq_of_perm {α β : Type} {f : α → List β} {as bs : List α} (h : as.Perm bs)
    (hnil : as.Pairwise fun a b => f a = [] ∨ f b = []) : as.flatMap f = bs.flatMap f := by
  induction h with
  | nil => rfl
  | cons a _ ih => rw [List.flatMap_cons, List.flatMap_cons, ih (List.pairwise_cons.mp hnil).2]
  | swap a b rest =>
    simp only [List.pairwise_cons, List.forall_mem_cons] at hnil
    rcases hnil.1.1 with ha | hb
    · simp [ha]
    · simp [hb]
  | trans hfirst _ ih ih' =>
    rw [ih hnil]
    exact ih' (hfirst.pairwise hnil Or.symm)

theorem filter_sitesFound_of_perm {config : Config} {packages others : List Package}
    (hperm : others.Perm packages) (hapart : packages.Pairwise (Package.Apart config))
    (position : Position) :
    (others.flatMap (Package.sitesFound config)).filter
        (fun site => site.signature.position = position) =
      (packages.flatMap (Package.sitesFound config)).filter
        fun site => site.signature.position = position := by
  rw [List.filter_flatMap, List.filter_flatMap]
  refine (flatMap_eq_of_perm hperm.symm ?_).symm
  exact hapart.imp fun h => h.filter_eq_nil position

/-- An analysis does not depend on the order of the packages, unless sites of different packages
stand at one position, and an analysis of some packages reports their sites in the same order as an
analysis of all. -/
theorem analysis_of_reordered_or_selected (config : Config) (packages : List Package)
    (analysis : Analysis) (h : analyze config packages = .ok analysis) :
    (∀ others, others.Perm packages → ∃ reordered, analyze config others = .ok reordered ∧
      reordered.sites.Perm analysis.sites ∧
      (packages.Pairwise (Package.Apart config) → reordered.sites = analysis.sites)) ∧
    ∀ request selected, selectPackages request packages = .ok selected →
      ∃ part, analyze config selected = .ok part ∧
        CopySite.StableSort ((packages.filter (Package.Requested request)).flatMap
          (Package.sitesFound config)) part.sites ∧
        part.sites.Sublist analysis.sites := by
  have hinspect := inspect_of_analyze h
  have hsites := h
  rw [analyze_of_inspect hinspect] at hsites
  cases hsites
  constructor
  · intro others hperm
    have hothers : ∀ p ∈ others, ∃ found, p.inspect config = .ok found := fun p hmem =>
      hinspect p (hperm.mem_iff.mp hmem)
    refine ⟨_, analyze_of_inspect hothers, ?_, ?_⟩
    · have hfound := hperm.flatMap_right (Package.sitesFound config)
      exact (CopySite.stableSort_sorted _).perm.trans
        (hfound.trans (CopySite.stableSort_sorted _).perm.symm)
    · intro hapart
      have hreordered := CopySite.stableSort_sorted (others.flatMap (Package.sitesFound config))
      have hsorted := CopySite.stableSort_sorted (packages.flatMap (Package.sitesFound config))
      apply Position.isOrder_le.eq_of_filter_key_eq hreordered.ordered hsorted.ordered
      intro position
      rw [hreordered.stable, hsorted.stable]
      exact filter_sitesFound_of_perm hperm hapart position
  · intro request selected hselected
    obtain rfl := selectPackages_eq_ok hselected
    have hpart : ∀ p ∈ packages.filter (Package.Requested request),
        ∃ found, p.inspect config = .ok found := fun p hmem =>
      hinspect p (List.mem_filter.mp hmem).1
    refine ⟨_, analyze_of_inspect hpart, CopySite.stableSort_sorted _, ?_⟩
    apply CopySite.sorted_sublist
    exact List.filter_sublist.flatMap _

/-- The two sites of the second package share a position, which no site of the first one has. -/
theorem analysis_of_reordered_or_selected_shapes_boxes :
    selectPackages (some "bo.../") [shapesPackage, boxesPackage] = .ok [boxesPackage] ∧
    ∃ analysis reordered part, analyze {} [shapesPackage, boxesPackage] = .ok analysis ∧
      analyze {} [boxesPackage, shapesPackage] = .ok reordered ∧
      reordered.sites = analysis.sites ∧
      analyze {} [boxesPackage] = .ok part ∧
      part.sites.Sublist analysis.sites ∧
      part.sites.Perm [⟨putFunction, ["parameter at index 0"]⟩,
        ⟨getFunction, ["return value 'Box' at index 0"]⟩] := by
  have hselected : selectPackages (some "bo.../") [shapesPackage, boxesPackage] =
      .ok [boxesPackage] := by
    decide +kernel
  have hinspect : ∀ p ∈ [shapesPackage, boxesPackage], p.inspect {} = .ok (p.inspected {}) := by
    decide +kernel
  have hapart : [shapesPackage, boxesPackage].Pairwise (Package.Apart {}) := by
    decide +kernel
  have hfound : ([shapesPackage, boxesPackage].filter (Package.Requested (some "bo.../"))).flatMap
      (Package.sitesFound {}) = [⟨putFunction, ["parameter at index 0"]⟩,
        ⟨getFunction, ["return value 'Box' at index 0"]⟩] := by
    decide +kernel
  have hanalyze := analyze_of_inspect fun p hmem => ⟨_, hinspect p hmem⟩
  obtain ⟨hreordered, hpart⟩ := analysis_of_reordered_or_selected {} _ _ hanalyze
  obtain ⟨reordered, hreordered, -, hsame⟩ := hreordered _ (.swap shapesPackage boxesPackage [])
  obtain ⟨part, hpart, hsites, hsublist⟩ := hpart _ _ hselected
  rw [hfound] at hsites
  exact ⟨hselected, _, reordered, part, hanalyze, hreordered, hsame hapart, hpart, hsublist,
    hsites.perm⟩

end CopyLint
