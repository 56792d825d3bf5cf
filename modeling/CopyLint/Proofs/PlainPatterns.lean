import CopyLint.Proofs.PatternMeaning
import Mathlib.Data.List.DropRight

/-! Requests without a wildcard. Such a request names one package, and selects it by its name; only
a line break at the end of a package's name is not seen. -/
namespace CopyLint

/-- The name that a request without a wildcard stands for: slashes at its end do not count, unless
it has nothing else. -/
def requestedName (request : String) : String :=
  if request.toList.all (· = '/') then request
  else String.ofList (request.toList.rdropWhile (· = '/'))

/-- A selection that takes the wanted packages in their order, and fails if there is none. -/
structure Takes (wanted : Package → Bool) (request : String) (packages : List Package) : Prop where
  ok_iff : ∀ selected, selectPackages (some request) packages = .ok selected ↔
    selected = packages.filter wanted ∧ selected ≠ []
  error_iff : ∀ e, selectPackages (some request) packages = .error e ↔
    e = ⟨request⟩ ∧ ∀ p ∈ packages, wanted p = false

theorem takes_matching (request : String) (packages : List Package) :
    Takes (fun p => (Pattern.ofRequest request).isMatch p.name) request packages := by
  cases hselected : packages.filter fun p => (Pattern.ofRequest request).isMatch p.name with
  | nil =>
    have hresult : selectPackages (some request) packages = .error ⟨request⟩ := by
      simp only [selectPackages, hselected]
      rfl
    refine ⟨fun selected => ?_, fun e => ?_⟩
    · simp [hresult, hselected]
    · simpa [hresult, eq_comm (b := e)] using fun _ => List.filter_eq_nil_iff.mp hselected
  | cons p rest =>
    have hresult : selectPackages (some request) packages = .ok (p :: rest) := by
      simp only [selectPackages, hselected]
      rfl
    refine ⟨fun selected => ?_, fun e => ?_⟩
    · rw [hresult, hselected, Except.ok.injEq, eq_comm]
      simp only [iff_self_and]
      rintro rfl
      exact List.cons_ne_nil p rest
    · have hp : p ∈ packages.filter fun p => (Pattern.ofRequest request).isMatch p.name := by
        rw [hselected]
        exact List.mem_cons_self
      rw [List.mem_filter] at hp
      rw [hresult]
      constructor
      · intro h
        cases h
      · rintro ⟨-, hnone⟩
        cases (hnone p hp.1).symm.trans hp.2

theorem Takes.congr {wanted wanted' : Package → Bool} {request : String} {packages : List Package}
    (h : Takes wanted request packages) (hsame : ∀ p ∈ packages, wanted p = wanted' p) :
    Takes wanted' request packages where
  ok_iff selected := by rw [h.ok_iff, List.filter_congr hsame]
  error_iff e := by
    rw [h.error_iff]
    exact and_congr_right fun _ => forall₂_congr fun p hp => by rw [hsame p hp]

theorem ofRequest_eq (request : String) :
    Pattern.ofRequest request = .ofString (requestedName request) := by
  have hempty : (request.toList.reverse.dropWhile (· = '/')).reverse = [] ↔
      request.toList.all (· = '/') = true := by
    simp
  simp only [Pattern.ofRequest, requestedName, hempty]
  split <;> rfl

theorem requestedName_begins (request : String) :
    (requestedName request).toList <+: request.toList := by
  unfold requestedName
  split
  · exact List.prefix_refl _
  · rw [String.toList_ofList]
    exact List.rdropWhile_prefix _ _

namespace Pattern

theorem spells_iff_of_no_dots {s : String} (h : ¬dots <:+: s.toList) {text : List Char} :
    (ofString s).spells text ↔ text = s.toList := by
  rw [spells_ofString_iff, tokens_of_no_dots h, Token.spell_map_literal_iff, or_iff_left]
  rintro ⟨rest, htokens, -⟩
  have hwildcard : Token.wildcard ∈ s.toList.map Token.literal := by
    rw [htokens]
    simp
  simp at hwildcard

theorem isMatch_iff_of_no_dots {s : String} (h : ¬dots <:+: s.toList) {name : String} :
    (ofString s).isMatch name ↔ name = s ∨ name = s ++ "\n" := by
  simp only [isMatch, Bool.or_eq_true, Bool.and_eq_true, decide_eq_true_eq,
    spells_iff_of_no_dots h]
  rw [← String.toList_inj, ← String.toList_inj, String.toList_append]
  apply or_congr_right
  constructor
  · rintro ⟨hlast, hinit⟩
    rw [← hinit]
    exact (List.dropLast_append_getLast? '\n' hlast).symm
  · intro hname
    rw [hname]
    simp

end Pattern

/-- A request without a wildcard selects the packages of the name that it stands for, and those
whose name has one more line break at its end. It selects by name alone exactly if there are none of
the latter. -/
theorem plain_requests_select_by_name {request : String}
    (h : ¬Pattern.dots <:+: request.toList) (packages : List Package) :
    Takes (fun p => p.name = requestedName request ∨ p.name = requestedName request ++ "\n")
      request packages ∧
    (Takes (fun p => p.name = requestedName request) request packages ↔
      ∀ p ∈ packages, p.name ≠ requestedName request ++ "\n") := by
  have hname : ¬Pattern.dots <:+: (requestedName request).toList := fun hdots =>
    h (hdots.trans (requestedName_begins request).isInfix)
  have htakes : Takes (fun p => p.name = requestedName request ∨
      p.name = requestedName request ++ "\n") request packages := by
    apply (takes_matching request packages).congr
    intro p _
    rw [ofRequest_eq, Bool.eq_iff_iff, decide_eq_true_iff]
    exact Pattern.isMatch_iff_of_no_dots hname
  refine ⟨htakes, ?_, ?_⟩
  · intro hexact p hp hbreak
    have hmem : p ∈ packages.filter fun p => p.name = requestedName request ∨
        p.name = requestedName request ++ "\n" := by
      simp [hp, hbreak]
    have hselected := (htakes.ok_iff _).mpr ⟨rfl, List.ne_nil_of_mem hmem⟩
    rw [((hexact.ok_iff _).mp hselected).1, List.mem_filter, decide_eq_true_eq, hbreak] at hmem
    simpa [← String.toList_inj] using hmem.2
  · intro hnone
    apply htakes.congr
    intro p hp
    simp [hnone p hp]

/-- A name of several lines is selected as it is, and a dot is a dot. -/
theorem plain_requests_select_by_name_lines :
    ¬Pattern.dots <:+: "a.\nb//".toList ∧ (∀ p ∈ [{ name := "a.\nb" }, { name := "ax\nb" }],
      Package.name p ≠ requestedName "a.\nb//" ++ "\n") ∧
    selectPackages (some "a.\nb//") [{ name := "a.\nb" }, { name := "ax\nb" }] =
      .ok [{ name := "a.\nb" }] := by
  have hdots : ¬Pattern.dots <:+: "a.\nb//".toList := by decide
  have hnames : ∀ p ∈ [{ name := "a.\nb" }, { name := "ax\nb" }],
      Package.name p ≠ requestedName "a.\nb//" ++ "\n" := by
    decide
  refine ⟨hdots, hnames, ?_⟩
  have htakes := (plain_requests_select_by_name hdots _).2.mpr hnames
  exact (htakes.ok_iff _).mpr ⟨by decide, by simp⟩

/-- A package is selected under a name that it does not have. -/
theorem request_misses_final_line_break :
    ¬Pattern.dots <:+: "a".toList ∧ requestedName "a" = "a" ∧
    selectPackages (some "a") [{ name := "a\n" }] = .ok [{ name := "a\n" }] ∧
    ¬Takes (fun p => p.name = "a") "a" [{ name := "a\n" }] := by
  have hselected : selectPackages (some "a") [{ name := "a\n" }] = .ok [{ name := "a\n" }] := by
    decide +kernel
  refine ⟨by decide, by decide, hselected, fun htakes => ?_⟩
  have hfilter := ((htakes.ok_iff _).mp hselected).1
  simp at hfilter

end CopyLint
