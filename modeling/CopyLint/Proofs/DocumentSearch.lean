import CopyLint.Discovery
import CopyLint.Proofs.Attempts
import CopyLint.Proofs.FolderContents

/-! Documents below a folder. The search finds each file that counts and to which folders lead that
count, once, in an order that the names alone decide. -/
namespace CopyLint

namespace Path

@[simp] theorem within_nil (p : Path) : p.within [] = p := by
  simp [within]

theorem within_join (p : Path) (name : String) (names : List String) :
    (p.join name).within names = p.within (name :: names) := by
  simp [within, join]

end Path

namespace Discovery

/-! What counts. -/

def Filter.Searches (f : Filter) (name : String) : Prop :=
  (∀ rest, name.toList ≠ '.' :: rest) ∧ (∀ rest, name.toList ≠ '_' :: rest) ∧
    name ≠ "testdata" ∧ name ∉ f.exclude

def Filter.Takes (f : Filter) (name : String) : Prop :=
  name ≠ "widecopy.toml" ∧ name ≠ "pyproject.toml" ∧
    ∃ extension ∈ f.extensions, Text.lower (Path.suffixOf name) = Text.lower extension

def Filter.Visits (f : Filter) (name : String) : Prop :=
  name ≠ "/" ∧ f.Searches name

/-- A folder of this name in the one that is listed under the path is visited, and its own path is
not too long to list it. -/
def Entered (f : Filter) (listed : Path) (name : String) : Prop :=
  f.Visits name ∧ (listed.join name).render.utf8ByteSize ≤ Path.textLimit

/-- The names go by way of folders that are entered, and the last of them counts. -/
def Allowed (f : Filter) (listed : Path) (counts : String → Prop) (names : List String) : Prop :=
  ∃ folders name, names = folders ++ [name] ∧ counts name ∧
    ∀ before folder after, folders = before ++ folder :: after →
      Entered f (listed.within before) folder

def IsDocument (f : Filter) (listed : Path) (tree : FileTree) (names : List String) : Prop :=
  Allowed f listed f.Takes names ∧ ∃ content, tree.Leads names (.file content)

def IsVisited (f : Filter) (listed : Path) (tree : FileTree) (names : List String) : Prop :=
  Allowed f listed f.Visits names ∧ ∃ entries, tree.Leads names (.folder entries)

/-- Folders are visited in one another for which there is no room. -/
def TooDeep [Host] (f : Filter) (listed : Path) (tree : FileTree) : Prop :=
  ∃ names, Host.walkingRoom < names.length ∧ IsVisited f listed tree names

section

variable {f : Filter} {listed : Path} {name : String}

theorem skipsFolder_eq_false_iff : f.skipsFolder name = false ↔ f.Searches name := by
  unfold Filter.skipsFolder Filter.Searches
  cases name.toList <;> simp [and_assoc]

theorem takesFile_iff : f.takesFile name = true ↔ f.Takes name := by
  unfold Filter.takesFile Filter.Takes Config.fileName
  simp only [Bool.and_eq_true, decide_eq_true_eq, List.contains_iff_mem, List.mem_map, and_assoc]
  simp only [eq_comm]

theorem visits_iff : visits f name = true ↔ f.Visits name := by
  simp [visits, Filter.Visits, skipsFolder_eq_false_iff]

theorem enters_iff : enters f listed name = true ↔ Entered f listed name := by
  simp [enters, Entered, visits_iff]

end

section

variable {f : Filter} {listed : Path} {counts : String → Prop} {name : String}
  {names : List String} {entries : List (String × FileTree)}

theorem not_allowed_nil : ¬Allowed f listed counts [] := by
  rintro ⟨folders, name, hnames, _⟩
  simp at hnames

theorem allowed_cons_iff : Allowed f listed counts (name :: names) ↔
    (names = [] ∧ counts name) ∨
      (Entered f listed name ∧ Allowed f (listed.join name) counts names) := by
  constructor
  · rintro ⟨folders, last, hnames, hcounts, hentered⟩
    cases folders with
    | nil =>
      obtain ⟨rfl, rfl⟩ := List.cons.inj hnames
      exact .inl ⟨rfl, hcounts⟩
    | cons folder folders =>
      obtain ⟨rfl, rfl⟩ := List.cons.inj hnames
      refine .inr ⟨by simpa using hentered [] name folders rfl, folders, last, rfl, hcounts, ?_⟩
      intro before folder after heq
      rw [Path.within_join]
      exact hentered (name :: before) folder after (congrArg (name :: ·) heq)
  · rintro (⟨rfl, hcounts⟩ | ⟨hname, folders, last, rfl, hcounts, hentered⟩)
    · exact ⟨[], name, rfl, hcounts, by simp⟩
    · refine ⟨name :: folders, last, rfl, hcounts, ?_⟩
      intro before folder after heq
      cases before with
      | nil =>
        cases heq
        simpa using hname
      | cons first before =>
        obtain ⟨rfl, hrest⟩ := List.cons.inj heq
        rw [← Path.within_join]
        exact hentered before folder after hrest

theorem not_isDocument_file (content : List UInt8) :
    ¬IsDocument f listed (.file content) names := by
  rintro ⟨hallowed, found, hleads⟩
  cases hleads
  exact not_allowed_nil hallowed

theorem not_isVisited_file (content : List UInt8) : ¬IsVisited f listed (.file content) names := by
  rintro ⟨-, entries, hleads⟩
  cases hleads

theorem isDocument_folder_iff : IsDocument f listed (.folder entries) names ↔
    (∃ name content, names = [name] ∧ (name, .file content) ∈ entries ∧ f.Takes name) ∨
      ∃ name inner rest, names = name :: rest ∧ (name, inner) ∈ entries ∧
        Entered f listed name ∧ IsDocument f (listed.join name) inner rest := by
  constructor
  · rintro ⟨hallowed, content, hleads⟩
    cases names with
    | nil => exact absurd hallowed not_allowed_nil
    | cons name rest =>
      obtain ⟨inner, hmem, hinner⟩ := FileTree.leads_cons_iff.mp hleads
      obtain ⟨rfl, htakes⟩ | ⟨hentered, hrest⟩ := allowed_cons_iff.mp hallowed
      · cases FileTree.leads_nil_iff.mp hinner
        exact .inl ⟨name, content, rfl, hmem, htakes⟩
      · exact .inr ⟨name, inner, rest, rfl, hmem, hentered, hrest, content, hinner⟩
  · rintro (⟨name, content, rfl, hmem, htakes⟩ |
      ⟨name, inner, rest, rfl, hmem, hentered, hrest, content, hinner⟩)
    · exact ⟨allowed_cons_iff.mpr (.inl ⟨rfl, htakes⟩), content, .inside hmem (.here _)⟩
    · exact ⟨allowed_cons_iff.mpr (.inr ⟨hentered, hrest⟩), content, .inside hmem hinner⟩

theorem isVisited_folder_iff : IsVisited f listed (.folder entries) names ↔
    (∃ name inside, names = [name] ∧ (name, .folder inside) ∈ entries ∧ f.Visits name) ∨
      ∃ name inside rest, names = name :: rest ∧ (name, .folder inside) ∈ entries ∧
        Entered f listed name ∧ IsVisited f (listed.join name) (.folder inside) rest := by
  constructor
  · rintro ⟨hallowed, found, hleads⟩
    cases names with
    | nil => exact absurd hallowed not_allowed_nil
    | cons name rest =>
      obtain ⟨inner, hmem, hinner⟩ := FileTree.leads_cons_iff.mp hleads
      cases inner with
      | file content => cases hinner
      | folder inside =>
        obtain ⟨rfl, hvisits⟩ | ⟨hentered, hrest⟩ := allowed_cons_iff.mp hallowed
        · exact .inl ⟨name, inside, rfl, hmem, hvisits⟩
        · exact .inr ⟨name, inside, rest, rfl, hmem, hentered, hrest, found, hinner⟩
  · rintro (⟨name, inside, rfl, hmem, hvisits⟩ |
      ⟨name, inside, rest, rfl, hmem, hentered, hrest, found, hinner⟩)
    · exact ⟨allowed_cons_iff.mpr (.inl ⟨rfl, hvisits⟩), inside, .inside hmem (.here _)⟩
    · exact ⟨allowed_cons_iff.mpr (.inr ⟨hentered, hrest⟩), found, .inside hmem hinner⟩

end

theorem foldersBelow_eq (f : Filter) (listed : Path) (entries : List (String × FileTree)) :
    foldersBelow f listed entries =
      (entries.filter fun (name, tree) => !isFile tree && enters f listed name).map
        fun (name, tree) => (name, below f (listed.join name) tree) := by
  induction entries with
  | nil => rw [foldersBelow]; rfl
  | cons entry rest ih =>
    obtain ⟨name, tree⟩ := entry
    rw [foldersBelow, ih]
    cases hfile : isFile tree <;> cases henters : enters f listed name <;> simp [hfile, henters]

section

variable {f : Filter} {listed : Path} {names : List String} {entries : List (String × FileTree)}

theorem mem_below_folder : names ∈ below f listed (.folder entries) ↔
    (∃ name content, names = [name] ∧ (name, .file content) ∈ entries ∧ f.Takes name) ∨
      ∃ name inner rest, names = name :: rest ∧ (name, inner) ∈ entries ∧
        Entered f listed name ∧ rest ∈ below f (listed.join name) inner := by
  simp only [below, foldersBelow_eq, List.mem_append, List.mem_map, List.mem_flatMap,
    List.mem_mergeSort, List.mem_filter, Bool.and_eq_true, takesFile_iff, enters_iff, Prod.exists]
  refine or_congr ⟨?_, ?_⟩ ⟨?_, ?_⟩
  · rintro ⟨_, ⟨name, tree, ⟨hmem, hfile, htakes⟩, rfl⟩, rfl⟩
    cases tree with
    | file content => exact ⟨name, content, rfl, hmem, htakes⟩
    | folder => cases hfile
  · rintro ⟨name, content, rfl, hmem, htakes⟩
    exact ⟨name, ⟨name, _, ⟨hmem, rfl, htakes⟩, rfl⟩, rfl⟩
  · rintro ⟨_, _, ⟨name, inner, ⟨hmem, _, hentered⟩, heq⟩, rest, hrest, rfl⟩
    obtain ⟨rfl, rfl⟩ := Prod.mk.inj heq
    exact ⟨name, inner, rest, rfl, hmem, hentered, hrest⟩
  · rintro ⟨name, inner, rest, rfl, hmem, hentered, hrest⟩
    cases inner with
    | file content =>
      rw [below] at hrest
      cases hrest
    | folder => exact ⟨name, _, ⟨name, _, ⟨hmem, rfl, hentered⟩, rfl⟩, rest, hrest, rfl⟩

theorem ne_nil_of_mem_below {tree : FileTree} (h : names ∈ below f listed tree) : names ≠ [] := by
  cases tree with
  | file content =>
    rw [below] at h
    cases h
  | folder entries =>
    obtain ⟨name, _, rfl, _⟩ | ⟨name, _, rest, rfl, _⟩ := mem_below_folder.mp h
    · exact List.cons_ne_nil _ _
    · exact List.cons_ne_nil _ _

theorem exists_of_mem_foldersBelow {found : String × List (List String)}
    (h : found ∈ foldersBelow f listed entries) :
    ∃ tree, (found.1, tree) ∈ entries ∧ found.2 = below f (listed.join found.1) tree := by
  rw [foldersBelow_eq, List.mem_map] at h
  obtain ⟨⟨name, tree⟩, hmem, rfl⟩ := h
  exact ⟨tree, (List.mem_filter.mp hmem).1, rfl⟩

/-- The search finds exactly the documents. -/
theorem mem_below_iff {tree : FileTree} (hdistinct : tree.Distinct) :
    names ∈ below f listed tree ↔ IsDocument f listed tree names := by
  induction hdistinct generalizing listed names with
  | file content =>
    rw [below]
    exact ⟨nofun, fun h => absurd h (not_isDocument_file content)⟩
  | @folder entries _ _ ih =>
    rw [mem_below_folder, isDocument_folder_iff]
    refine or_congr_right ?_
    constructor
    · rintro ⟨name, inner, rest, rfl, hmem, hentered, hrest⟩
      exact ⟨name, inner, rest, rfl, hmem, hentered, (ih _ hmem).mp hrest⟩
    · rintro ⟨name, inner, rest, rfl, hmem, hentered, hrest⟩
      exact ⟨name, inner, rest, rfl, hmem, hentered, (ih _ hmem).mpr hrest⟩

end

/-! How deep the search goes. -/

section

variable {f : Filter} {listed : Path} {tree : FileTree} {n : Nat}

theorem lt_depthOfEntries_iff {entries : List (String × FileTree)} :
    n < depthOfEntries f listed entries ↔ ∃ name inside, (name, .folder inside) ∈ entries ∧
      f.Visits name ∧ (n = 0 ∨ (Entered f listed name ∧
        n - 1 < depth f (listed.join name) (.folder inside))) := by
  induction entries with
  | nil => simp [depthOfEntries]
  | cons entry rest ih =>
    obtain ⟨name, tree⟩ := entry
    simp only [List.mem_cons, or_and_right, exists_or, ← ih, Prod.mk.injEq]
    cases tree with
    | file content => simp [depthOfEntries, isFile]
    | folder inside =>
      by_cases hvisits : f.Visits name
      · have hinside : n < (if enters f listed name then depth f (listed.join name) (.folder inside)
            else 0) + 1 ↔ n = 0 ∨ (Entered f listed name ∧
              n - 1 < depth f (listed.join name) (.folder inside)) := by
          rw [← enters_iff]
          split
          · rename_i henters
            simp only [henters, true_and]
            omega
          · rename_i hstays
            simp [hstays]
        simp only [depthOfEntries, isFile, visits_iff.mpr hvisits, hvisits, Bool.not_true,
          Bool.or_self, Bool.false_eq_true, if_false, true_and, FileTree.folder.injEq,
          exists_and_left, exists_eq_left, and_assoc, ← hinside]
        omega
      · have hnot : visits f name = false := Bool.eq_false_iff.mpr (mt visits_iff.mp hvisits)
        simp [depthOfEntries, isFile, hnot, hvisits]

theorem lt_depth_iff (hdistinct : tree.Distinct) :
    n < depth f listed tree ↔ ∃ names, n < names.length ∧ IsVisited f listed tree names := by
  induction hdistinct generalizing n listed with
  | file content =>
    rw [depth]
    exact ⟨nofun, fun ⟨_, _, hvisited⟩ => absurd hvisited (not_isVisited_file content)⟩
  | @folder entries _ _ ih =>
    rw [depth, lt_depthOfEntries_iff]
    constructor
    · rintro ⟨name, inside, hmem, hvisits, rfl | ⟨hentered, hdeep⟩⟩
      · refine ⟨[name], Nat.one_pos, isVisited_folder_iff.mpr ?_⟩
        exact .inl ⟨name, inside, rfl, hmem, hvisits⟩
      · obtain ⟨names, hlength, hvisited⟩ := (ih _ hmem).mp hdeep
        refine ⟨name :: names, ?_, isVisited_folder_iff.mpr
          (.inr ⟨name, inside, names, rfl, hmem, hentered, hvisited⟩)⟩
        rw [List.length_cons]
        omega
    · rintro ⟨names, hlength, hvisited⟩
      obtain ⟨name, inside, rfl, hmem, hvisits⟩ |
          ⟨name, inside, rest, rfl, hmem, hentered, hrest⟩ := isVisited_folder_iff.mp hvisited
      · exact ⟨name, inside, hmem, hvisits, .inl (Nat.lt_one_iff.mp hlength)⟩
      · refine ⟨name, inside, hmem, hentered.1, ?_⟩
        rw [List.length_cons] at hlength
        refine (Nat.eq_zero_or_pos n).imp_right fun hpos => ⟨hentered, (ih _ hmem).mpr ?_⟩
        exact ⟨rest, by omega, hrest⟩

end

/-! The order. -/

/-- Files come before folders, and both by their names. -/
inductive Before : List String → List String → Prop where
  | files {a b : String} : a < b → Before [a] [b]
  | fileFirst (a b : String) {names : List String} : names ≠ [] → Before [a] (b :: names)
  | folders {a b : String} {names names' : List String} : a < b → names ≠ [] → names' ≠ [] →
      Before (a :: names) (b :: names')
  | inside (a : String) {names names' : List String} : Before names names' →
      Before (a :: names) (a :: names')

theorem Before.asymm {names names' : List String} (h : Before names names') :
    ¬Before names' names := by
  induction h with
  | files hlt =>
    intro h'
    cases h' with
    | files hlt' => exact String.lt_asymm hlt hlt'
    | fileFirst _ _ hne | folders _ hne => exact hne rfl
    | inside _ h => cases h
  | fileFirst a b hne =>
    intro h'
    cases h' with
    | files => exact hne rfl
    | fileFirst _ _ hne' | folders _ _ hne' => exact hne' rfl
    | inside _ h => cases h
  | folders hlt hne hne' =>
    intro h'
    cases h' with
    | files => exact hne rfl
    | fileFirst => exact hne' rfl
    | folders hlt' => exact String.lt_asymm hlt hlt'
    | inside => exact String.lt_irrefl _ hlt
  | inside a h ih =>
    intro h'
    cases h' with
    | files hlt | folders hlt => exact String.lt_irrefl _ hlt
    | fileFirst => cases h
    | inside _ h' => exact ih h'

theorem Before.ne {names names' : List String} (h : Before names names') : names ≠ names' := by
  rintro rfl
  exact h.asymm h

theorem pairwise_lt_mergeSort {α : Type} (key : α → String) {as : List α}
    (hnodup : (as.map key).Nodup) :
    (as.mergeSort fun a b => key a ≤ key b).Pairwise fun a b => key a < key b := by
  have hsorted : (as.mergeSort fun a b => key a ≤ key b).Pairwise fun a b => key a ≤ key b := by
    have htrans : ∀ a b c, decide (key a ≤ key b) = true → decide (key b ≤ key c) = true →
        decide (key a ≤ key c) = true := by
      simpa using fun a b c => String.le_trans
    have htotal : ∀ a b, (decide (key a ≤ key b) || decide (key b ≤ key a)) = true := by
      simpa using fun a b => String.le_total (key a) (key b)
    simpa using List.pairwise_mergeSort htrans htotal as
  have hne : (as.mergeSort fun a b => key a ≤ key b).Pairwise fun a b => key a ≠ key b :=
    List.pairwise_map.mp (((List.mergeSort_perm as _).map key).nodup_iff.mpr hnodup)
  refine hsorted.imp₂ (fun a b hle hne => String.not_le.mp fun hge => ?_) hne
  exact hne (String.le_antisymm hle hge)

/-- What the search finds is in order, and so nothing is found twice. -/
theorem pairwise_below {f : Filter} {listed : Path} {tree : FileTree}
    (hdistinct : tree.Distinct) : (below f listed tree).Pairwise Before := by
  induction hdistinct generalizing listed with
  | file content =>
    rw [below]
    exact .nil
  | @folder entries hnodup _ ih =>
    have hfiles : ((entries.filter fun (name, tree) => isFile tree && f.takesFile name).map
        (·.1)).Nodup := hnodup.sublist (List.filter_sublist.map _)
    have hfolders : ((foldersBelow f listed entries).map (·.1)).Nodup := by
      rw [foldersBelow_eq, List.map_map]
      exact hnodup.sublist (List.filter_sublist.map _)
    have hbelow : ∀ found ∈ foldersBelow f listed entries, found.2.Pairwise Before ∧
        ∀ names ∈ found.2, names ≠ [] := by
      intro found hfound
      obtain ⟨tree, hmem, heq⟩ := exists_of_mem_foldersBelow hfound
      rw [heq]
      exact ⟨ih _ hmem, fun names => ne_nil_of_mem_below⟩
    rw [below, List.pairwise_append]
    refine ⟨?_, ?_, ?_⟩
    · rw [List.pairwise_map]
      exact (pairwise_lt_mergeSort id (by simpa using hfiles)).imp .files
    · rw [List.pairwise_flatMap]
      constructor
      · intro found hfound
        rw [List.pairwise_map]
        exact (hbelow found (List.mem_mergeSort.mp hfound)).1.imp (.inside found.1)
      · refine (pairwise_lt_mergeSort _ hfolders).imp_of_mem ?_
        intro found later hfound hlater hlt
        simp only [List.mem_map]
        rintro _ ⟨names, hnames, rfl⟩ _ ⟨names', hnames', rfl⟩
        exact .folders hlt ((hbelow found (List.mem_mergeSort.mp hfound)).2 names hnames)
          ((hbelow later (List.mem_mergeSort.mp hlater)).2 names' hnames')
    · simp only [List.mem_map, List.mem_flatMap]
      rintro _ ⟨name, _, rfl⟩ _ ⟨found, hfound, names, hnames, rfl⟩
      exact .fileFirst name found.1 ((hbelow found (List.mem_mergeSort.mp hfound)).2 names hnames)

theorem below_relisted {f : Filter} {listed : Path} {tree tree' : FileTree}
    (h : tree.Relisted tree') : below f listed tree' = below f listed tree := by
  have hsame : ∀ names, names ∈ below f listed tree' ↔ names ∈ below f listed tree := by
    intro names
    rw [mem_below_iff h.distinct, mem_below_iff h.distinct']
    simp only [IsDocument, h.files]
  have hperm : (below f listed tree').Perm (below f listed tree) := by
    refine (List.perm_ext_iff_of_nodup ?_ ?_).mpr hsame
    · exact (pairwise_below h.distinct').imp Before.ne
    · exact (pairwise_below h.distinct).imp Before.ne
  refine hperm.eq_of_pairwise (fun _ _ _ _ hbefore hafter => ?_) (pairwise_below h.distinct')
    (pairwise_below h.distinct)
  exact absurd hafter hbefore.asymm

/-! The whole search. -/

/-- The path leads somewhere, and there is room for a search there. -/
def Searchable [Host] (f : Filter) (tree : FileTree) (path : Path) : Prop :=
  ∃ found, tree.find path = .found found ∧ ¬TooDeep f (listedAs path) found

/-- What a path stands for: a file for itself, and a folder for the documents below it. -/
inductive StandsFor (f : Filter) (tree : FileTree) (path : Path) : List Path → Prop where
  | file {content : List UInt8} : tree.find path = .found (.file content) →
      StandsFor f tree path [path]
  | folder {entries : List (String × FileTree)} {found : List (List String)} :
      tree.find path = .found (.folder entries) → found.Pairwise Before →
        (∀ names, names ∈ found ↔ IsDocument f (listedAs path) (.folder entries) names) →
          StandsFor f tree path (found.map path.within)

section

variable [Host] {f : Filter} {tree tree' : FileTree} {listed path : Path}

theorem tooDeep_iff (hdistinct : tree.Distinct) :
    TooDeep f listed tree ↔ Host.walkingRoom < depth f listed tree :=
  (lt_depth_iff hdistinct).symm

theorem tooDeep_relisted (f : Filter) (listed : Path) (h : tree.Relisted tree') :
    TooDeep f listed tree' ↔ TooDeep f listed tree := by
  simp only [TooDeep, IsVisited, h.folders]

theorem standingFor_relisted (h : tree.Relisted tree') :
    standingFor f tree' path = standingFor f tree path := by
  unfold standingFor
  have hfind := h.find path
  generalize tree.find path = found, tree'.find path = found' at hfind
  cases hfind with
  | missing | behindFile | nameTooLong => rfl
  | @found tree tree' h =>
    cases tree with
    | file content =>
      cases h.file_eq
      rfl
    | folder entries =>
      obtain ⟨entries', rfl⟩ := h.exists_folder
      have hdeep := tooDeep_relisted f (listedAs path) h
      rw [tooDeep_iff h.distinct, tooDeep_iff h.distinct'] at hdeep
      simp only [below_relisted h, hdeep]

theorem documents_relisted (h : tree.Relisted tree') (paths : List Path) :
    documents f tree' paths = documents f tree paths := by
  unfold documents
  have hsame : standingFor f tree' = standingFor f tree := by
    funext path
    exact standingFor_relisted h
  rw [hsame]

theorem Searchable.exists_standingFor (h : Searchable f tree path) (hdistinct : tree.Distinct) :
    ∃ result, standingFor f tree path = .ok result ∧ StandsFor f tree path result := by
  obtain ⟨found, hfind, hdeep⟩ := h
  have hfound := hdistinct.of_find hfind
  unfold standingFor
  rw [hfind]
  cases found with
  | file content => exact ⟨[path], rfl, .file hfind⟩
  | folder entries =>
    rw [tooDeep_iff hfound] at hdeep
    exact ⟨_, if_neg hdeep, .folder hfind (pairwise_below hfound) fun names => mem_below_iff hfound⟩

theorem standingFor_of_missing (h : tree.find path = .missing ∨ tree.find path = .behindFile) :
    standingFor f tree path = .error (.missingPath path.render) := by
  unfold standingFor
  rcases h with h | h
  · rw [h]
    rfl
  · rw [h]
    rfl

theorem standingFor_of_nameTooLong (h : tree.find path = .nameTooLong) :
    standingFor f tree path = .error (.nameTooLong path.render) := by
  unfold standingFor
  rw [h]
  rfl

theorem standingFor_of_tooDeep (hdistinct : tree.Distinct) {found : FileTree}
    (h : tree.find path = .found found) (hdeep : TooDeep f (listedAs path) found) :
    standingFor f tree path = .error .tooDeep := by
  rw [tooDeep_iff (hdistinct.of_find h)] at hdeep
  unfold standingFor
  rw [h]
  cases found with
  | file content =>
    rw [depth] at hdeep
    cases hdeep
  | folder entries => exact if_pos hdeep

theorem documents_of_error (hdistinct : tree.Distinct) {before : List Path}
    (hbefore : ∀ earlier ∈ before, Searchable f tree earlier)
    {cause : DiscoveryError} (h : standingFor f tree path = .error cause) (after : List Path) :
    documents f tree (before ++ path :: after) = .error cause := by
  obtain ⟨results, hresults, _⟩ := exists_mapM_eq_ok fun earlier hmem =>
    (hbefore earlier hmem).exists_standingFor hdistinct
  rw [documents, List.mapM_append, hresults, List.mapM_cons, h]
  rfl

end

/-- In a directory tree the search fails at the first path that leads nowhere, and says which one it
is and whether it is missing or too long. It also fails at a path below which there are folders in
one another for which there is no room. If neither happens it gives, for each path in turn, the path
itself if it is a file and otherwise the documents below it, each once and in order: files by name,
then folders by name. The order in which folders are listed makes no difference. -/
theorem documents_are_found_in_order [Host] (f : Filter) (tree : FileTree)
    (hdistinct : tree.Distinct) (paths : List Path) :
    (∀ before path after, paths = before ++ path :: after →
      (∀ earlier ∈ before, Searchable f tree earlier) →
        ((tree.find path = .missing ∨ tree.find path = .behindFile) →
          documents f tree paths = .error (.missingPath path.render)) ∧
        (tree.find path = .nameTooLong →
          documents f tree paths = .error (.nameTooLong path.render)) ∧
        ∀ found, tree.find path = .found found → TooDeep f (listedAs path) found →
          documents f tree paths = .error .tooDeep) ∧
    ((∀ path ∈ paths, Searchable f tree path) →
      ∃ results, documents f tree paths = .ok results.flatten ∧
        paths.Forall₂ (StandsFor f tree) results) ∧
    ∀ tree', tree.Relisted tree' → documents f tree' paths = documents f tree paths := by
  refine ⟨?_, ?_, fun tree' h => documents_relisted h paths⟩
  · rintro before path after rfl hbefore
    refine ⟨fun hmissing => ?_, fun hlong => ?_, fun found hfind hdeep => ?_⟩
    · exact documents_of_error hdistinct hbefore (standingFor_of_missing hmissing) after
    · exact documents_of_error hdistinct hbefore (standingFor_of_nameTooLong hlong) after
    · have hfails := standingFor_of_tooDeep hdistinct hfind hdeep
      exact documents_of_error hdistinct hbefore hfails after
  · intro hfound
    obtain ⟨results, hresults, hstands⟩ := exists_mapM_eq_ok fun path hmem =>
      (hfound path hmem).exists_standingFor hdistinct
    refine ⟨results, ?_, hstands⟩
    rw [documents, hresults]
    rfl

def siteEntries : List (String × FileTree) := [
  ("B.json", .file []), ("_drafts", .folder [("d.json", .file [])]),
  ("blog", .folder [("b.json", .file [])]), ("site", .folder [
    ("pages", .folder [("a.json", .file []), ("notes.txt", .file [])]),
    ("index.JSON", .file []), ("testdata", .folder [("t.json", .file [])])]),
  ("vendor", .folder [("v.json", .file [])]), ("widecopy.toml", .file []), ("z.json", .file [])]

def siteFilter : Filter where
  extensions := [".Json", ".TOML"]
  exclude := ["vendor"]

theorem distinct_site : FileTree.Distinct (.folder siteEntries) := by
  simp [siteEntries, FileTree.distinct_folder_iff, FileTree.Distinct.file]

theorem below_site : below siteFilter ⟨"", ["."]⟩ (.folder siteEntries) =
    [["B.json"], ["z.json"], ["blog", "b.json"], ["site", "index.JSON"],
      ["site", "pages", "a.json"]] := by
  have hfiles : (siteEntries.filter fun (name, tree) =>
      isFile tree && siteFilter.takesFile name).map (·.1) = ["B.json", "z.json"] := by
    decide +kernel
  have hfolders : foldersBelow siteFilter ⟨"", ["."]⟩ siteEntries =
      [("blog", [["b.json"]]), ("site", [["index.JSON"], ["pages", "a.json"]])] := by
    decide +kernel
  rw [below, hfiles, hfolders, List.mergeSort_of_pairwise (by decide +kernel),
    List.mergeSort_of_pairwise (by decide +kernel)]
  rfl

theorem depth_site : depth siteFilter ⟨"", ["."]⟩ (.folder siteEntries) = 2 := by
  decide +kernel

abbrev narrowHost : Host :=
  { Host.usual with walkingRoom := 1 }

theorem documents_are_found_in_order_site :
    FileTree.Distinct (.folder siteEntries) ∧
    documents siteFilter (.folder siteEntries)
      [⟨"", ["vendor"]⟩, ⟨"", ["z.json", "x"]⟩, ⟨"", ["lost"]⟩] =
        .error (.missingPath "z.json/x") ∧
    @documents narrowHost siteFilter (.folder siteEntries) [{}] = .error .tooDeep ∧
    documents siteFilter (.folder siteEntries.reverse) [{}, ⟨"", ["vendor", "v.json"]⟩] =
      .ok [⟨"", ["B.json"]⟩, ⟨"", ["z.json"]⟩, ⟨"", ["blog", "b.json"]⟩,
        ⟨"", ["site", "index.JSON"]⟩, ⟨"", ["site", "pages", "a.json"]⟩,
        ⟨"", ["vendor", "v.json"]⟩] := by
  refine ⟨distinct_site, ?_, ?_, ?_⟩
  · have hvendor : ∀ path ∈ [(⟨"", ["vendor"]⟩ : Path)],
        Searchable siteFilter (.folder siteEntries) path := by
      rw [List.forall_mem_singleton]
      refine ⟨.folder [("v.json", .file [])], rfl, ?_⟩
      rw [tooDeep_iff (by simp [FileTree.distinct_folder_iff, FileTree.Distinct.file])]
      decide +kernel
    exact ((documents_are_found_in_order siteFilter _ distinct_site _).1 [⟨"", ["vendor"]⟩]
      ⟨"", ["z.json", "x"]⟩ [⟨"", ["lost"]⟩] rfl hvendor).1 (.inr rfl)
  · have hdeep : @TooDeep narrowHost siteFilter ⟨"", ["."]⟩ (.folder siteEntries) := by
      rw [@tooDeep_iff narrowHost _ _ _ distinct_site, depth_site]
      decide
    exact ((@documents_are_found_in_order narrowHost siteFilter _ distinct_site _).1 [] {} [] rfl
      (by simp)).2.2 _ rfl hdeep
  · have hrelisted := FileTree.Relisted.of_perm (List.reverse_perm siteEntries).symm distinct_site
    rw [(documents_are_found_in_order siteFilter _ distinct_site _).2.2 _ hrelisted]
    have htop : standingFor siteFilter (.folder siteEntries) {} = .ok ((below siteFilter
        ⟨"", ["."]⟩ (.folder siteEntries)).map (Path.within {})) := by
      have hfind : FileTree.find (.folder siteEntries) {} = .found (.folder siteEntries) := rfl
      have hroom : ¬Host.walkingRoom < depth siteFilter ⟨"", ["."]⟩ (.folder siteEntries) := by
        rw [depth_site]
        decide
      rw [standingFor, hfind]
      exact if_neg hroom
    have hfile : standingFor siteFilter (.folder siteEntries) ⟨"", ["vendor", "v.json"]⟩ =
        .ok [⟨"", ["vendor", "v.json"]⟩] := rfl
    rw [documents, List.mapM_cons, htop, below_site, List.mapM_cons, hfile]
    rfl

def longName (n : Nat) : String :=
  String.ofList (List.replicate n 'a')

theorem not_mem_longName (n : Nat) : '\x00' ∉ (longName n).toList := by
  rw [longName, String.toList_ofList]
  simp

def longTree : FileTree :=
  .folder [(longName 252, .folder [("docs", .folder [("x.json", .file [])])])]

/-- Into the folder with the long name and out again, so many times, and then to stay. -/
def detour (times : Nat) : Path :=
  ⟨"", (List.replicate times [longName 252, ".."]).flatten ++ [longName 252]⟩

theorem hasZero_detour (times : Nat) : FileTree.hasZero (detour times) = false := by
  simp [FileTree.hasZero, detour, not_mem_longName]

theorem follow_back_and_forth {name : String} (hdots : name ≠ "..") (hslash : name ≠ "/")
    (hlimit : name.utf8ByteSize ≤ Path.nameLimit) (entries : List (String × FileTree))
    (times : Nat) :
    FileTree.follow [] (.folder [(name, .folder entries)])
      ((List.replicate times [name, ".."]).flatten ++ [name]) = .found (.folder entries) := by
  have hlimit : ¬Path.nameLimit < name.utf8ByteSize := Nat.not_lt.mpr hlimit
  induction times with
  | zero => simp [FileTree.follow, hdots, hlimit]
  | succ times ih => simpa [List.replicate_succ, FileTree.follow, hdots, hslash, hlimit] using ih

theorem find_detour : longTree.find (detour 15) =
    .found (.folder [("docs", .folder [("x.json", .file [])])]) := by
  have hlimit : ¬Path.textLimit < (detour 15).render.utf8ByteSize := by decide +kernel
  rw [FileTree.find, hasZero_detour, if_neg Bool.false_ne_true, if_neg hlimit]
  exact follow_back_and_forth (by decide +kernel) (by decide +kernel) (by decide +kernel) _ 15

theorem find_longName : FileTree.find (.folder []) ⟨"", [longName 256]⟩ = .nameTooLong := by
  have hzero : FileTree.hasZero ⟨"", [longName 256]⟩ = false := by
    simp [FileTree.hasZero, not_mem_longName]
  have hlimit : Path.nameLimit < (longName 256).utf8ByteSize := by decide +kernel
  have hdots : longName 256 ≠ ".." := by decide +kernel
  rw [FileTree.find, hzero, if_neg Bool.false_ne_true]
  split
  · rfl
  · simp [FileTree.follow, Path.absolute, hdots, hlimit]

/-- A path with a name that is too long leads nowhere but is not reported missing. A document is not
found by way of a folder whose path is too long, although its folder is there. -/
theorem long_paths_are_not_searched :
    documents ⟨[".json"], []⟩ (.folder []) [⟨"", [longName 256]⟩] =
      .error (.nameTooLong (Path.render ⟨"", [longName 256]⟩)) ∧
    longTree.find (detour 15) = .found (.folder [("docs", .folder [("x.json", .file [])])]) ∧
    documents ⟨[".json"], []⟩ longTree [detour 15] = .ok [] := by
  refine ⟨?_, find_detour, ?_⟩
  · rw [documents, List.mapM_cons, standingFor, find_longName]
    rfl
  · have hlong : ¬Entered ⟨[".json"], []⟩ (detour 15) "docs" := by
      rw [← enters_iff]
      decide +kernel
    have hnone : below ⟨[".json"], []⟩ (detour 15)
        (.folder [("docs", .folder [("x.json", .file [])])]) = [] := by
      rw [List.eq_nil_iff_forall_not_mem]
      intro names hmem
      simp [mem_below_folder, hlong] at hmem
    have hroom : ¬Host.walkingRoom < depth ⟨[".json"], []⟩ (detour 15)
        (.folder [("docs", .folder [("x.json", .file [])])]) := by
      decide +kernel
    have hlisted : listedAs (detour 15) = detour 15 := if_neg (by simp [detour])
    rw [documents, List.mapM_cons, standingFor, find_detour]
    dsimp only
    rw [hlisted, hnone, if_neg hroom]
    rfl

end Discovery

end CopyLint
