import CopyLint.Config.Exclude
import Mathlib.Data.List.DropRight

/-! The names of folders to leave out have one normal form. A text of names and a list of such texts
say the same, and names in normal form are read as they are. -/
namespace CopyLint

namespace Text

variable {drop : Char → Bool} {cs : List Char} {c : Char}

theorem trim_eq_rdropWhile (drop : Char → Bool) (cs : List Char) :
    trim drop cs = (cs.dropWhile drop).rdropWhile drop :=
  rfl

theorem mem_of_mem_trim (h : c ∈ trim drop cs) : c ∈ cs := by
  rw [trim_eq_rdropWhile] at h
  exact (List.dropWhile_suffix drop).mem ((List.rdropWhile_prefix drop _).mem h)

theorem first_trim (h : (trim drop cs).head? = some c) : drop c = false := by
  obtain ⟨removed, hremoved⟩ := List.rdropWhile_prefix drop (cs.dropWhile drop)
  have hfirst : (cs.dropWhile drop).head? = some c := by
    rw [← hremoved, List.head?_append, ← trim_eq_rdropWhile, h]
    rfl
  have hkept := List.head?_dropWhile_not drop cs
  rwa [hfirst] at hkept

theorem last_trim (h : (trim drop cs).getLast? = some c) : drop c = false := by
  have hkept := List.head?_dropWhile_not drop (cs.dropWhile drop).reverse
  rw [trim, List.getLast?_reverse] at h
  rwa [h] at hkept

theorem trim_of_ends (hfirst : ∀ c, cs.head? = some c → drop c = false)
    (hlast : ∀ c, cs.getLast? = some c → drop c = false) : trim drop cs = cs := by
  have hfront : cs.dropWhile drop = cs := by
    cases cs with
    | nil => rfl
    | cons c rest => rw [List.dropWhile_cons_of_neg (by simp [hfirst c rfl])]
  rw [trim_eq_rdropWhile, hfront, List.rdropWhile_eq_self_iff]
  intro hne
  simp [hlast _ (List.getLast?_eq_some_getLast hne)]

end Text

namespace Config

/-- A name in normal form. -/
structure IsName (name : String) : Prop where
  nonempty : name ≠ ""
  no_comma : ',' ∉ name.toList
  first : ∀ c, name.toList.head? = some c → Text.isBlank c = false
  last : ∀ c, name.toList.getLast? = some c → Text.isBlank c = false

theorem not_mem_of_mem_splitOn {cs piece : List Char} (h : piece ∈ cs.splitOn ',') :
    ',' ∉ piece := by
  induction cs generalizing piece with
  | nil => simp_all
  | cons c rest ih =>
    rw [List.splitOn_cons_eq_if_modifyHead] at h
    split at h
    · rcases List.mem_cons.mp h with rfl | h
      · exact List.not_mem_nil
      · exact ih h
    · rename_i hc
      obtain ⟨first, others, hsplit⟩ :=
        List.exists_cons_of_ne_nil (List.splitOn_ne_nil ',' rest)
      rw [hsplit, List.modifyHead_cons] at h
      rw [hsplit] at ih
      rcases List.mem_cons.mp h with rfl | h
      · have hne : ',' ≠ c := fun heq => hc (beq_iff_eq.mpr heq.symm)
        exact List.not_mem_cons_of_ne_of_not_mem hne (ih List.mem_cons_self)
      · exact ih (List.mem_cons_of_mem first h)

theorem isName_of_mem_namesIn {s name : String} (h : name ∈ namesIn s) : IsName name := by
  simp only [namesIn, List.mem_map, List.mem_filter, decide_eq_true_eq] at h
  obtain ⟨trimmed, ⟨⟨piece, hpiece, rfl⟩, hne⟩, rfl⟩ := h
  refine ⟨?_, ?_, ?_, ?_⟩
  · rw [ne_eq, ← String.toList_inj, String.toList_ofList]
    exact hne
  · rw [String.toList_ofList]
    exact fun hcomma => not_mem_of_mem_splitOn hpiece (Text.mem_of_mem_trim hcomma)
  · rw [String.toList_ofList]
    exact fun c => Text.first_trim
  · rw [String.toList_ofList]
    exact fun c => Text.last_trim

theorem IsName.namesIn_eq {name : String} (h : IsName name) : namesIn name = [name] := by
  have hne : name.toList ≠ [] := by
    rw [ne_eq, ← String.toList_empty, String.toList_inj]
    exact h.nonempty
  rw [namesIn, List.splitOn_eq_singleton h.no_comma, List.map_singleton,
    Text.trim_of_ends h.first h.last]
  simp [hne]

theorem namesIn_append (a b : String) : namesIn (a ++ "," ++ b) = namesIn a ++ namesIn b := by
  have hsplit : (a ++ "," ++ b).toList.splitOn ',' =
      a.toList.splitOn ',' ++ b.toList.splitOn ',' := by
    have htext : (a ++ "," ++ b).toList = a.toList ++ ',' :: b.toList := by simp
    rw [htext]
    exact List.splitOn_append_cons_self _ _
  simp only [namesIn, hsplit, List.map_append, List.filter_append]

theorem namesIn_intercalate (texts : List String) :
    namesIn (",".intercalate texts) = texts.flatMap namesIn := by
  match texts with
  | [] => rfl
  | [text] => simp
  | first :: second :: rest =>
    have hjoin : ",".intercalate (first :: second :: rest) =
        first ++ "," ++ ",".intercalate (second :: rest) := by
      simp
    rw [hjoin, namesIn_append, namesIn_intercalate (second :: rest), ← List.flatMap_cons]

theorem excludeNames_texts (texts : List String) :
    excludeNames (.list (texts.map .text)) = texts.flatMap namesIn := by
  rw [excludeNames, List.flatMap_map]

theorem isName_of_mem_excludeNames {v : Value} {name : String} (h : name ∈ excludeNames v) :
    IsName name := by
  cases v with
  | text s => exact isName_of_mem_namesIn h
  | list items =>
    obtain ⟨item, -, h⟩ := List.mem_flatMap.mp h
    cases item with
    | text s => exact isName_of_mem_namesIn h
    | null | bool | int | float | moment | list | table => cases h
  | null | bool | int | float | moment | table => cases h

theorem excludeNames_texts_eq_iff {names : List String} :
    excludeNames (.list (names.map .text)) = names ↔ ∀ name ∈ names, IsName name := by
  constructor
  · intro h name hname
    rw [← h] at hname
    exact isName_of_mem_excludeNames hname
  · intro h
    calc excludeNames (.list (names.map .text))
      _ = names.flatMap namesIn := excludeNames_texts names
      _ = names.flatMap fun name => [name] := List.flatMap_congr fun name hname =>
          (h name hname).namesIn_eq
      _ = names := by simp

def excluding (s : Section) (v : Value) : Section :=
  Value.put "exclude" v s

theorem excluded_excluding (s : Section) (v : Value) :
    excluded (excluding s v) = excludeNames v := by
  have hfound : Value.get? (excluding s v) "exclude" = some v := by
    induction s with
    | nil => simp [excluding, Value.put]
    | cons entry rest ih =>
      obtain ⟨key, value⟩ := entry
      rw [excluding, Value.put]
      split
      · simp
      · rename_i hkey
        rw [Value.get?_cons_of_ne (Ne.symm hkey)]
        exact ih
  rw [excluded, hfound]

def isText : Value → Bool
  | .text _ => true
  | _ => false

theorem excludeNames_filter_isText (items : List Value) :
    excludeNames (.list (items.filter isText)) = excludeNames (.list items) := by
  simp only [excludeNames]
  induction items with
  | nil => rfl
  | cons item rest ih =>
    cases item with
    | text s => rw [List.filter_cons_of_pos rfl, List.flatMap_cons, List.flatMap_cons, ih]
    | null | bool | int | float | moment | list | table => simpa [isText] using ih

/-- Every name to leave out is in normal form, and the lists of such names are just the lists that
are read as they are. Texts may be listed or joined by commas, lists are read part by part, and
what is not a text does not count. -/
theorem excluded_names_have_one_form (s : Section) :
    (∀ name ∈ excluded s, IsName name) ∧
    excluded (excluding s (.list ((excluded s).map .text))) = excluded s ∧
    (∀ names, excluded (excluding s (.list (names.map .text))) = names ↔
      ∀ name ∈ names, IsName name) ∧
    (∀ texts, excluded (excluding s (.list (texts.map .text))) =
      excluded (excluding s (.text (",".intercalate texts)))) ∧
    (∀ xs ys, excluded (excluding s (.list (xs ++ ys))) =
      excluded (excluding s (.list xs)) ++ excluded (excluding s (.list ys))) ∧
    ∀ xs, excluded (excluding s (.list (xs.filter isText))) =
      excluded (excluding s (.list xs)) := by
  simp only [excluded_excluding]
  have hnames : ∀ name ∈ excluded s, IsName name := by
    intro name hname
    unfold excluded at hname
    split at hname
    · exact isName_of_mem_excludeNames hname
    · cases hname
  refine ⟨hnames, excludeNames_texts_eq_iff.mpr hnames, fun names => excludeNames_texts_eq_iff,
    ?_, ?_, excludeNames_filter_isText⟩
  · intro texts
    rw [excludeNames_texts, excludeNames, namesIn_intercalate]
  · intro xs ys
    simp only [excludeNames, List.flatMap_append]

/-- Blanks inside a name stay, and a comma inside a listed text divides it. -/
theorem excluded_names_have_one_form_vendor :
    "third party" ∈ excluded [("exclude", .list [.int 1, .text " vendor,, third party\t"])] ∧
      IsName "third party" := by
  have hmem : "third party" ∈
      excluded [("exclude", .list [.int 1, .text " vendor,, third party\t"])] := by
    decide +kernel
  exact ⟨hmem, (excluded_names_have_one_form _).1 _ hmem⟩

end Config

end CopyLint
