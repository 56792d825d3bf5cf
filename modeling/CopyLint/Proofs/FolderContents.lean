import Mathlib.Data.List.Forall2
import Mathlib.Data.List.Nodup
import CopyLint.Files.Tree

/-! What a directory tree holds, whatever the order in which its folders list their entries. A path
leads to the same in two trees that hold the same. -/
namespace CopyLint.FileTree

/-- The names, from the outermost folder on, lead from a tree to what is there. -/
inductive Leads : FileTree → List String → FileTree → Prop where
  | here (tree : FileTree) : Leads tree [] tree
  | inside {entries : List (String × FileTree)} {name : String} {names : List String}
      {inner target : FileTree} : (name, inner) ∈ entries → Leads inner names target →
        Leads (.folder entries) (name :: names) target

/-- No folder has two entries of the same name. -/
inductive Distinct : FileTree → Prop where
  | file (content : List UInt8) : Distinct (.file content)
  | folder {entries : List (String × FileTree)} : (entries.map (·.1)).Nodup →
      (∀ entry ∈ entries, Distinct entry.2) → Distinct (.folder entries)

/-- The same tree, with the entries of its folders listed in any order: there are the same files and
the same folders. -/
structure Relisted (tree tree' : FileTree) : Prop where
  distinct : tree.Distinct
  distinct' : tree'.Distinct
  files : ∀ names content, tree.Leads names (.file content) ↔ tree'.Leads names (.file content)
  folders : ∀ names, (∃ entries, tree.Leads names (.folder entries)) ↔
    ∃ entries, tree'.Leads names (.folder entries)

variable {tree tree' target : FileTree} {entries entries' : List (String × FileTree)}
  {name : String} {names : List String} {inner : FileTree}

theorem leads_nil_iff : tree.Leads [] target ↔ tree = target := by
  constructor
  · rintro ⟨⟩
    rfl
  · rintro rfl
    exact .here tree

theorem leads_cons_iff : Leads (.folder entries) (name :: names) target ↔
    ∃ inner, (name, inner) ∈ entries ∧ inner.Leads names target := by
  constructor
  · rintro (_ | ⟨hmem, hleads⟩)
    exact ⟨_, hmem, hleads⟩
  · rintro ⟨inner, hmem, hleads⟩
    exact .inside hmem hleads

theorem distinct_folder_iff : Distinct (.folder entries) ↔
    (entries.map (·.1)).Nodup ∧ ∀ entry ∈ entries, Distinct entry.2 := by
  constructor
  · rintro ⟨⟩
    exact ⟨‹_›, ‹_›⟩
  · exact fun h => .folder h.1 h.2

section

variable (hnodup : (entries.map (·.1)).Nodup)
include hnodup

theorem eq_of_mem {other : FileTree} (hmem : (name, inner) ∈ entries)
    (hother : (name, other) ∈ entries) : other = inner :=
  congrArg Prod.snd (List.inj_on_of_nodup_map hnodup hother hmem rfl)

theorem leads_of_mem (hmem : (name, inner) ∈ entries) :
    Leads (.folder entries) (name :: names) target ↔ inner.Leads names target := by
  rw [leads_cons_iff]
  constructor
  · rintro ⟨other, hother, hleads⟩
    rwa [eq_of_mem hnodup hmem hother] at hleads
  · exact fun hleads => ⟨inner, hmem, hleads⟩

theorem lookup_eq_some_iff : entries.lookup name = some inner ↔ (name, inner) ∈ entries := by
  induction entries with
  | nil => simp
  | cons entry rest ih =>
    obtain ⟨key, tree⟩ := entry
    rw [List.map_cons, List.nodup_cons] at hnodup
    rw [List.lookup_cons, List.mem_cons]
    by_cases hkey : name = key
    · subst hkey
      have hrest : (name, inner) ∉ rest := fun hmem =>
        hnodup.1 (List.mem_map.mpr ⟨_, hmem, rfl⟩)
      simp [hrest, eq_comm]
    · simp [hkey, beq_eq_false_iff_ne.mpr hkey, ih hnodup.2]

end

namespace Relisted

theorem refl (h : tree.Distinct) : tree.Relisted tree :=
  ⟨h, h, fun _ _ => .rfl, fun _ => .rfl⟩

theorem symm (h : tree.Relisted tree') : tree'.Relisted tree :=
  ⟨h.distinct', h.distinct, fun names content => (h.files names content).symm,
    fun names => (h.folders names).symm⟩

theorem of_perm (h : entries.Perm entries') (hdistinct : Distinct (.folder entries)) :
    Relisted (.folder entries) (.folder entries') := by
  have hleads : ∀ name names target, Leads (.folder entries) (name :: names) target ↔
      Leads (.folder entries') (name :: names) target := by
    simp only [leads_cons_iff, h.mem_iff, implies_true]
  refine ⟨hdistinct, ?_, fun names content => ?_, fun names => ?_⟩
  · cases hdistinct with
    | folder hnodup hentries =>
      refine .folder ((h.map _).nodup_iff.mp hnodup) fun entry hmem => ?_
      exact hentries entry (h.mem_iff.mpr hmem)
  · cases names with
    | nil => simp only [leads_nil_iff, reduceCtorEq]
    | cons name names => exact hleads name names _
  · cases names with
    | nil => exact iff_of_true ⟨entries, .here _⟩ ⟨entries', .here _⟩
    | cons name names => simp only [hleads]

theorem file_eq {content : List UInt8} (h : Relisted (.file content) tree') :
    tree' = .file content :=
  leads_nil_iff.mp ((h.files [] content).mp (.here _))

theorem exists_folder (h : Relisted (.folder entries) tree') :
    ∃ entries', tree' = .folder entries' := by
  obtain ⟨entries', hleads⟩ := (h.folders []).mp ⟨entries, .here _⟩
  exact ⟨entries', leads_nil_iff.mp hleads⟩

theorem exists_mem (h : Relisted (.folder entries) (.folder entries'))
    (hmem : (name, inner) ∈ entries) :
    ∃ inner', (name, inner') ∈ entries' ∧ inner.Relisted inner' := by
  cases h.distinct with
  | folder hnodup hentries =>
    cases h.distinct' with
    | folder hnodup' hentries' =>
      obtain ⟨inner', hmem'⟩ : ∃ inner', (name, inner') ∈ entries' := by
        cases inner with
        | file content =>
          obtain ⟨inner', hmem', _⟩ :=
            leads_cons_iff.mp ((h.files [name] content).mp (.inside hmem (.here _)))
          exact ⟨inner', hmem'⟩
        | folder below =>
          obtain ⟨_, hleads⟩ := (h.folders [name]).mp ⟨below, .inside hmem (.here _)⟩
          obtain ⟨inner', hmem', _⟩ := leads_cons_iff.mp hleads
          exact ⟨inner', hmem'⟩
      refine ⟨inner', hmem', hentries _ hmem, hentries' _ hmem', fun names content => ?_,
        fun names => ?_⟩
      · rw [← leads_of_mem hnodup hmem, ← leads_of_mem hnodup' hmem']
        exact h.files (name :: names) content
      · have hfolders := h.folders (name :: names)
        simpa only [leads_of_mem hnodup hmem, leads_of_mem hnodup' hmem'] using hfolders

theorem rel_lookup (h : Relisted (.folder entries) (.folder entries')) (name : String) :
    Option.Rel Relisted (entries.lookup name) (entries'.lookup name) := by
  cases h.distinct with
  | folder hnodup _ =>
    cases h.distinct' with
    | folder hnodup' _ =>
      cases hfound : entries.lookup name with
      | some inner =>
        obtain ⟨inner', hmem', hinner⟩ := h.exists_mem ((lookup_eq_some_iff hnodup).mp hfound)
        rw [(lookup_eq_some_iff hnodup').mpr hmem']
        exact .some hinner
      | none =>
        cases hfound' : entries'.lookup name with
        | none => exact .none
        | some inner' =>
          obtain ⟨inner, hmem, _⟩ := h.symm.exists_mem ((lookup_eq_some_iff hnodup').mp hfound')
          rw [(lookup_eq_some_iff hnodup).mpr hmem] at hfound
          cases hfound

end Relisted

inductive Lookup.Relisted : Lookup → Lookup → Prop where
  | found {tree tree' : FileTree} : tree.Relisted tree' → Relisted (.found tree) (.found tree')
  | missing : Relisted .missing .missing
  | behindFile : Relisted .behindFile .behindFile
  | nameTooLong : Relisted .nameTooLong .nameTooLong

theorem Relisted.follow (h : tree.Relisted tree') {above above' : List FileTree}
    (habove : above.Forall₂ Relisted above') (parts : List String) :
    (tree.follow above parts).Relisted (tree'.follow above' parts) := by
  induction parts generalizing tree tree' above above' with
  | nil => exact .found h
  | cons part rest ih =>
    cases tree with
    | file content =>
      cases h.file_eq
      exact .behindFile
    | folder entries =>
      obtain ⟨entries', rfl⟩ := h.exists_folder
      have hup : (if part = ".." then above else []).Forall₂ Relisted
          (if part = ".." then above' else []) := by
        split
        · exact habove
        · exact .nil
      have hnext : (if part = ".." || part = "/" then [] else folder entries :: above).Forall₂
          Relisted (if part = ".." || part = "/" then [] else folder entries' :: above') := by
        split
        · exact .nil
        · exact .cons h habove
      have hfound := h.rel_lookup part
      rw [FileTree.follow, FileTree.follow]
      generalize (if part = ".." then above else []) = up,
        (if part = ".." then above' else []) = up' at hup
      generalize entries.lookup part = found, entries'.lookup part = found' at hfound
      cases hup with
      | cons hparent hbeyond => exact ih hparent hbeyond
      | nil =>
        dsimp only
        split
        · exact .nameTooLong
        · cases hfound with
          | none => exact .missing
          | some hinner => exact ih hinner hnext

theorem Relisted.find (h : tree.Relisted tree') (path : Path) :
    (tree.find path).Relisted (tree'.find path) := by
  unfold FileTree.find
  split
  · exact .missing
  · split
    · exact .nameTooLong
    · exact h.follow .nil _

theorem Distinct.of_find {path : Path} (h : tree.Distinct)
    (hfind : tree.find path = .found target) : target.Distinct := by
  have hsame := (Relisted.refl h).find path
  rw [hfind] at hsame
  cases hsame with
  | found h => exact h.distinct

end CopyLint.FileTree
