import CopyLint.Proofs.StableSorting
import CopyLint.Report

/-! The order of a report: sites by position, and those at one position as they were found. -/
namespace CopyLint

namespace Position

/-- File by code points, then line, then column. -/
def Le (p q : Position) : Prop :=
  p.file < q.file ∨ p.file = q.file ∧ (p.line < q.line ∨ p.line = q.line ∧ p.column ≤ q.column)

theorem le_eq_true_iff (p q : Position) : p.le q = true ↔ p.Le q := by
  unfold le Le
  by_cases hfile : p.file = q.file
  · by_cases hline : p.line = q.line
    · simp [hfile, hline]
    · simp [hfile, hline]
  · simp [hfile]

theorem isOrder_le : IsOrder Le := by
  apply isOrder_text
  · intro p q r hpq hqr
    omega
  · intro p q
    omega
  · intro p q hfile hpq hqp
    have hrest : p.line = q.line ∧ p.column = q.column := by omega
    cases p
    cases q
    simp_all

end Position

namespace CopySite

/-- The sites in order of position, where those at one position keep their order. -/
abbrev StableSort : List CopySite → List CopySite → Prop :=
  CopyLint.StableSort (fun site => site.signature.position) Position.Le

theorem le_iff (a b : CopySite) : a.signature.position.le b.signature.position = true ↔
    a.signature.position.Le b.signature.position :=
  Position.le_eq_true_iff _ _

theorem stableSort_sorted (found : List CopySite) : StableSort found (sorted found) :=
  Position.isOrder_le.stableSort_mergeSort le_iff found

theorem stableSort_iff {found sites : List CopySite} :
    StableSort found sites ↔ sorted found = sites :=
  Position.isOrder_le.stableSort_iff le_iff

theorem sorted_sublist {found others : List CopySite} (h : others.Sublist found) :
    (sorted others).Sublist (sorted found) :=
  sublist_mergeSort_of_sublist (Position.isOrder_le.le_trans le_iff)
    (Position.isOrder_le.le_total le_iff) h

theorem sorted_sorted (found : List CopySite) : sorted (sorted found) = sorted found :=
  List.mergeSort_of_pairwise
    ((stableSort_sorted found).ordered.imp fun h => (le_iff _ _).mpr h)

theorem sorted_eq_nil_iff {found : List CopySite} : sorted found = [] ↔ found = [] := by
  rw [← List.length_eq_zero_iff, (stableSort_sorted found).perm.length_eq, List.length_eq_zero_iff]

end CopySite

end CopyLint
