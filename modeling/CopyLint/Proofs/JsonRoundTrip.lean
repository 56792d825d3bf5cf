import CopyLint.Proofs.JsonText

/-! JSON texts of values. A value without floats and moments is read back from its text, with the
keys of its tables in the order in which the text has them. -/
namespace CopyLint

namespace Value

/-- A value of integers that are not too long, texts, truth values, lists and tables, in which no
table has a key twice. -/
inductive Plain : Value → Prop where
  | null : Plain .null
  | bool (b : Bool) : Plain (.bool b)
  | int {n : Int} (h : Digits.isOverlong n = false) : Plain (.int n)
  | text (s : String) : Plain (.text s)
  | list {items : List Value} (h : ∀ v ∈ items, Plain v) : Plain (.list items)
  | table {entries : List (String × Value)} (hkeys : (entries.map (·.1)).Nodup)
    (h : ∀ entry ∈ entries, Plain entry.2) : Plain (.table entries)

def byKey {α : Type} (entries : List (String × α)) : List (String × α) :=
  entries.mergeSort fun a b => a.1 ≤ b.1

theorem byKey_perm {α : Type} (entries : List (String × α)) : (byKey entries).Perm entries :=
  List.mergeSort_perm entries _

theorem byKey_map {α β : Type} (f : α → β) (entries : List (String × α)) :
    byKey (entries.map fun entry => (entry.1, f entry.2)) =
      (byKey entries).map fun entry => (entry.1, f entry.2) := by
  symm
  apply List.map_mergeSort
  intro a _ b _
  rfl

mutual

def sortKeys : Value → Value
  | .list items => .list (sortItems items)
  | .table entries => .table (byKey (sortEntries entries))
  | v => v

def sortItems : List Value → List Value
  | [] => []
  | item :: rest => sortKeys item :: sortItems rest

def sortEntries : List (String × Value) → List (String × Value)
  | [] => []
  | (key, value) :: rest => (key, sortKeys value) :: sortEntries rest

end

theorem sortItems_eq_map (items : List Value) : sortItems items = items.map sortKeys := by
  induction items with
  | nil => rfl
  | cons item rest ih => rw [sortItems, ih, List.map_cons]

theorem sortEntries_eq_map (entries : List (String × Value)) :
    sortEntries entries = entries.map fun entry => (entry.1, entry.2.sortKeys) := by
  induction entries with
  | nil => rfl
  | cons entry rest ih => rw [sortEntries, ih, List.map_cons]

theorem anyOverlong_eq_any (items : List Value) : anyOverlong items = items.any hasOverlong := by
  induction items with
  | nil => rfl
  | cons item rest ih => rw [anyOverlong, ih, List.any_cons]

theorem get?_eq_some_iff {entries : List (String × Value)} (hkeys : (entries.map (·.1)).Nodup)
    {key : String} {v : Value} : get? entries key = some v ↔ (key, v) ∈ entries := by
  induction entries with
  | nil => simp
  | cons entry rest ih =>
    obtain ⟨other, w⟩ := entry
    obtain ⟨hnew, hkeys⟩ := List.nodup_cons.mp hkeys
    rw [List.mem_cons, Prod.mk.injEq]
    by_cases hkey : key = other
    · subst hkey
      have hrest : (key, v) ∉ rest := by
        intro hmem
        exact hnew (List.mem_map.mpr ⟨_, hmem, rfl⟩)
      simp [hrest, eq_comm]
    · simp [ih hkeys, hkey]

theorem get?_sortEntries (entries : List (String × Value)) (key : String) :
    get? (sortEntries entries) key = (get? entries key).map sortKeys := by
  induction entries with
  | nil => rfl
  | cons entry rest ih =>
    obtain ⟨other, v⟩ := entry
    rw [sortEntries]
    by_cases hkey : key = other
    · simp [hkey]
    · simp [hkey, ih]

theorem get?_byKey_sortEntries {entries : List (String × Value)}
    (hkeys : (entries.map (·.1)).Nodup) (key : String) :
    get? (byKey (sortEntries entries)) key = (get? entries key).map sortKeys := by
  have hsame : ((sortEntries entries).map (·.1)).Nodup := by
    simpa [sortEntries_eq_map, Function.comp_def] using hkeys
  have hsorted : ((byKey (sortEntries entries)).map (·.1)).Nodup :=
    ((byKey_perm _).map _).nodup_iff.mpr hsame
  rw [← get?_sortEntries]
  ext v
  rw [get?_eq_some_iff hsorted, get?_eq_some_iff hsame, (byKey_perm _).mem_iff]

theorem put_of_not_mem {key : String} {entries : List (String × Value)}
    (h : key ∉ entries.map (·.1)) (v : Value) : put key v entries = entries ++ [(key, v)] := by
  induction entries with
  | nil => rfl
  | cons entry rest ih =>
    simp only [List.map_cons, List.mem_cons, not_or] at h
    simp [put, Ne.symm h.1, ih h.2]

end Value

namespace Json

open Value

theorem writeItems_eq_map (depth : Nat) (items : List Value) :
    writeItems depth items = items.map (writeAt depth) := by
  induction items with
  | nil => rfl
  | cons item rest ih => rw [writeItems, ih, List.map_cons]

theorem writeEntries_eq_map (depth : Nat) (entries : List (String × Value)) :
    writeEntries depth entries = entries.map fun entry => (entry.1, writeAt depth entry.2) := by
  induction entries with
  | nil => rfl
  | cons entry rest ih => rw [writeEntries, ih, List.map_cons]

/-! How values start, and what stands between them. -/

/-- The text starts with none of the characters that are skipped or looked for before a value. -/
def Opens (text : List Char) : Prop :=
  ∃ c ∈ text.head?, isBlank c = false ∧ c ≠ '\ufeff' ∧ c ≠ ']' ∧ c ≠ '\x7d'

theorem skipBlank_cons {c : Char} (h : isBlank c = false) (rest : List Char) :
    skipBlank (c :: rest) = c :: rest := by
  simp [skipBlank, h]

theorem Opens.append {text : List Char} (h : Opens text) (rest : List Char) :
    Opens (text ++ rest) := by
  obtain ⟨c, hc, hopens⟩ := h
  obtain ⟨s, rfl⟩ := List.head?_eq_some_iff.mp hc
  exact ⟨c, rfl, hopens⟩

theorem skipBlank_of_opens {text : List Char} (h : Opens text) (rest : List Char) :
    skipBlank (text ++ rest) = text ++ rest := by
  obtain ⟨c, hc, hblank, -⟩ := h
  obtain ⟨s, rfl⟩ := List.head?_eq_some_iff.mp hc
  exact skipBlank_cons hblank _

theorem skipBlank_newline (depth : Nat) (rest : List Char) :
    skipBlank (newline depth ++ rest) = skipBlank rest := by
  apply List.dropWhile_append_of_pos
  intro c hc
  simp only [newline, List.mem_cons, List.mem_replicate] at hc
  obtain rfl | ⟨-, rfl⟩ := hc <;> rfl

theorem ends_newline (depth : Nat) (rest : List Char) : Ends (newline depth ++ rest) := by
  simp [Ends, newline]

theorem ends_comma (rest : List Char) : Ends (',' :: rest) := by
  simp [Ends]

/-- The text is read as the value wherever it stands, with two units of fuel for each character. -/
structure Reads (text : List Char) (v : Value) : Prop where
  opens : Opens text
  reads : ∀ fuel rest, 2 * text.length ≤ fuel → Ends rest →
    readValue fuel (text ++ rest) = .ok (v, rest)

theorem reads_text (s : String) : Reads (writeText s) (.text s) where
  opens := ⟨'"', rfl, by decide⟩
  reads := by
    intro fuel rest hfuel _
    cases fuel with
    | zero => simp [writeText] at hfuel
    | succ fuel =>
      simp [writeText, readValue, readText_flatMap_escapeChar, bind, Except.bind, pure, Except.pure]

theorem reads_null : Reads "null".toList .null where
  opens := ⟨'n', rfl, by decide⟩
  reads := by
    intro fuel rest hfuel _
    cases fuel with
    | zero => simp at hfuel
    | succ fuel =>
      simp [readValue, readWord?, words, afterWord?, ← String.length_toList, pure, Except.pure]

theorem reads_bool (b : Bool) :
    Reads (if b then "true" else "false").toList (.bool b) where
  opens := by
    cases b
    · exact ⟨'f', rfl, by decide⟩
    · exact ⟨'t', rfl, by decide⟩
  reads := by
    intro fuel rest hfuel _
    cases fuel with
    | zero => cases b <;> simp at hfuel
    | succ fuel =>
      cases b
      all_goals
        simp [readValue, readWord?, words, afterWord?, ← String.length_toList, pure, Except.pure]

theorem exists_toString_eq_cons (n : Int) : ∃ first others,
    (toString n).toList = first :: others ∧ (first.isDigit = true ∨ first = '-') ∧
      ∀ rest, readWord? (first :: (others ++ rest)) = none := by
  obtain ⟨digit, others, hdigits⟩ :=
    List.exists_cons_of_ne_nil (Nat.toDigits_ne_nil (b := 10) (n := n.natAbs))
  have hdigit : digit.isDigit = true := isDigit_toDigits n.natAbs digit (by simp [hdigits])
  have hother : ∀ c : Char, c.isDigit = false → c ≠ digit := by
    rintro c hc rfl
    simp [hdigit] at hc
  rw [toList_toString, hdigits]
  by_cases hneg : n < 0
  · refine ⟨'-', digit :: others, if_pos hneg, .inr rfl, ?_⟩
    intro rest
    apply List.findSome?_eq_none_iff.mpr
    simp [words, afterWord?, hother]
  · refine ⟨digit, others, if_neg hneg, .inl hdigit, ?_⟩
    intro rest
    apply List.findSome?_eq_none_iff.mpr
    simp [words, afterWord?, hother]

theorem reads_int {n : Int} (h : Digits.isOverlong n = false) :
    Reads (toString n).toList (.int n) := by
  obtain ⟨first, others, htext, hfirst, hword⟩ := exists_toString_eq_cons n
  have hother : ∀ c : Char, c.isDigit = false ∧ c ≠ '-' → first ≠ c := by
    rintro c hc rfl
    simp [hc] at hfirst
  refine ⟨⟨first, by simp only [htext]; rfl, ?_⟩, ?_⟩
  · simp [isBlank, hother]
  · intro fuel rest hfuel hrest
    have hnumber := readNumber_toString h hrest
    rw [htext] at hfuel hnumber ⊢
    cases fuel with
    | zero => simp at hfuel
    | succ fuel =>
      rw [← hnumber, List.cons_append]
      unfold readValue
      split
      all_goals simp_all

/-! Lists and tables. Their members are read one after another, over what stands between them. -/

def joined (depth : Nat) (members : List (List Char)) : List Char :=
  List.intercalate (',' :: newline (depth + 1)) members

theorem joined_singleton (depth : Nat) (member : List Char) : joined depth [member] = member :=
  List.intercalate_singleton

theorem joined_cons (depth : Nat) (member : List Char) {others : List (List Char)}
    (hne : others ≠ []) : joined depth (member :: others) =
      member ++ ',' :: (newline (depth + 1) ++ joined depth others) := by
  obtain ⟨next, others, rfl⟩ := List.exists_cons_of_ne_nil hne
  simp [joined, List.intercalate_cons_cons]

theorem enclose_of_ne_nil (opening closing : Char) (depth : Nat) {members : List (List Char)}
    (hne : members ≠ []) : enclose opening closing depth members =
      opening :: (newline (depth + 1) ++ joined depth members ++ newline depth ++ [closing]) := by
  obtain ⟨member, others, rfl⟩ := List.exists_cons_of_ne_nil hne
  rfl

theorem opens_joined {α : Type} {write : α → List Char} {members : List α}
    (hne : members.map write ≠ []) (h : ∀ member ∈ members, Opens (write member)) (depth : Nat) :
    Opens (joined depth (members.map write)) := by
  cases members with
  | nil => exact absurd rfl hne
  | cons member others =>
    have hmember := h member List.mem_cons_self
    by_cases hlast : others = []
    · subst hlast
      rwa [List.map_cons, List.map_nil, joined_singleton]
    · rw [List.map_cons, joined_cons depth _ (by simpa)]
      exact hmember.append _

theorem readValue_bracket {s rest : List Char} {items : List Value} {fuel : Nat}
    (hopens : Opens (skipBlank s)) (hitems : readItems fuel (skipBlank s) = .ok (items, rest)) :
    readValue (fuel + 1) ('[' :: s) = .ok (.list items, rest) := by
  obtain ⟨c, hc, -, -, hclosing, -⟩ := hopens
  obtain ⟨others, hs⟩ := List.head?_eq_some_iff.mp hc
  simp [readValue, hs, hclosing, hs ▸ hitems, bind, Except.bind, pure, Except.pure]

theorem readValue_brace {s rest : List Char} {entries : List (String × Value)} {fuel : Nat}
    (hopens : Opens (skipBlank s))
    (hentries : readEntries fuel [] (skipBlank s) = .ok (entries, rest)) :
    readValue (fuel + 1) ('\x7b' :: s) = .ok (.table entries, rest) := by
  obtain ⟨c, hc, -, -, -, hclosing⟩ := hopens
  obtain ⟨others, hs⟩ := List.head?_eq_some_iff.mp hc
  simp [readValue, hs, hclosing, hs ▸ hentries, bind, Except.bind, pure, Except.pure]

/-- It is enough that the brackets are read with nothing in them, and with members in them. -/
theorem reads_enclose {opening closing : Char} {depth : Nat} {members : List (List Char)}
    {v : Value} (hopening : Opens [opening])
    (hnil : members = [] →
      ∀ fuel rest, readValue (fuel + 1) (opening :: closing :: rest) = .ok (v, rest))
    (hcons : members ≠ [] → ∀ fuel rest, 2 * (joined depth members).length < fuel →
      readValue (fuel + 1) (opening :: (newline (depth + 1) ++ (joined depth members ++
        (newline depth ++ closing :: rest)))) = .ok (v, rest)) :
    Reads (enclose opening closing depth members) v := by
  by_cases hne : members = []
  · subst hne
    refine ⟨hopening.append _, ?_⟩
    intro fuel rest hfuel _
    obtain ⟨fuel, rfl⟩ : ∃ n, fuel = n + 1 :=
      Nat.exists_eq_add_one_of_ne_zero (by simp [enclose] at hfuel; omega)
    exact hnil rfl fuel rest
  · rw [enclose_of_ne_nil opening closing depth hne]
    refine ⟨hopening.append _, ?_⟩
    intro fuel rest hfuel _
    simp only [List.cons_append, List.append_assoc, List.nil_append, List.length_cons,
      List.length_append] at hfuel ⊢
    obtain ⟨fuel, rfl⟩ : ∃ n, fuel = n + 1 := Nat.exists_eq_add_one_of_ne_zero (by omega)
    exact hcons hne fuel rest (by omega)

theorem readItems_last {s after rest : List Char} {v : Value} {fuel : Nat}
    (hvalue : readValue fuel s = .ok (v, after)) (hafter : skipBlank after = ']' :: rest) :
    readItems (fuel + 1) s = .ok ([v], rest) := by
  simp [readItems, hvalue, hafter, bind, Except.bind, pure, Except.pure]

theorem readItems_next {s after more rest : List Char} {v : Value} {items : List Value} {fuel : Nat}
    (hvalue : readValue fuel s = .ok (v, after)) (hafter : skipBlank after = ',' :: more)
    (hmore : readItems fuel (skipBlank more) = .ok (items, rest)) :
    readItems (fuel + 1) s = .ok (v :: items, rest) := by
  simp [readItems, hvalue, hafter, hmore, bind, Except.bind, pure, Except.pure]

section

variable {α : Type} {write : α → List Char} {value : α → Value} {depth : Nat} {rest : List Char}

theorem readItems_joined {items : List α} (hne : items ≠ [])
    (h : ∀ item ∈ items, Reads (write item) (value item)) {fuel : Nat}
    (hfuel : 2 * (joined depth (items.map write)).length < fuel) :
    readItems fuel (joined depth (items.map write) ++ (newline depth ++ ']' :: rest)) =
      .ok (items.map value, rest) := by
  induction items generalizing fuel with
  | nil => exact absurd rfl hne
  | cons item others ih =>
    obtain ⟨hitem, hothers⟩ := List.forall_mem_cons.mp h
    obtain ⟨fuel, rfl⟩ : ∃ n, fuel = n + 1 := Nat.exists_eq_add_one_of_ne_zero (by omega)
    by_cases hlast : others = []
    · subst hlast
      simp only [List.map_cons, List.map_nil, joined_singleton] at hfuel ⊢
      apply readItems_last (hitem.reads _ _ (by omega) (ends_newline _ _))
      rw [skipBlank_newline, skipBlank_cons rfl]
    · rw [List.map_cons, joined_cons depth _ (by simpa)] at hfuel ⊢
      simp only [List.append_assoc, List.cons_append, List.length_append, List.length_cons]
        at hfuel ⊢
      apply readItems_next (hitem.reads _ _ (by omega) (ends_comma _)) (skipBlank_cons rfl _)
      rw [skipBlank_newline, skipBlank_of_opens, ih hlast hothers (by omega)]
      exact opens_joined (by simpa) (fun item hmem => (hothers item hmem).opens) depth

theorem reads_list {items : List α} (h : ∀ item ∈ items, Reads (write item) (value item)) :
    Reads (enclose '[' ']' depth (items.map write)) (.list (items.map value)) := by
  apply reads_enclose ⟨'[', rfl, by decide⟩
  · intro hnil fuel rest
    rw [List.map_eq_nil_iff] at hnil
    simp [hnil, readValue, skipBlank_cons, isBlank, pure, Except.pure]
  · intro hne fuel rest hfuel
    have hopens := opens_joined hne (fun item hmem => (h item hmem).opens) depth
    apply readValue_bracket
    · rw [skipBlank_newline, skipBlank_of_opens hopens]
      exact hopens.append _
    · rw [skipBlank_newline, skipBlank_of_opens hopens]
      exact readItems_joined (by simpa using hne) h hfuel

theorem opens_writeEntry (entry : String × List Char) : Opens (writeEntry entry) :=
  ⟨'"', rfl, by decide⟩

theorem readKey_writeText (key : String) {text : List Char} (htext : Opens text) :
    readKey (writeText key ++ ':' :: ' ' :: (text ++ rest)) = .ok (key, text ++ rest) := by
  have hblank : skipBlank (' ' :: (text ++ rest)) = text ++ rest := skipBlank_of_opens htext rest
  simp [readKey, writeText, readText_flatMap_escapeChar, skipBlank_cons, isBlank, hblank, bind,
    Except.bind, pure, Except.pure]

section

variable {s text after : List Char} {key : String} {v : Value} {fuel : Nat}
  {entries : List (String × Value)} (hnew : key ∉ entries.map (·.1))
  (hkey : readKey s = .ok (key, text)) (hvalue : readValue fuel text = .ok (v, after))

include hnew hkey hvalue

theorem readEntries_last (hafter : skipBlank after = '\x7d' :: rest) :
    readEntries (fuel + 1) entries s = .ok (entries ++ [(key, v)], rest) := by
  simp [readEntries, hkey, hvalue, hafter, put_of_not_mem hnew, bind, Except.bind, pure,
    Except.pure]

theorem readEntries_next {more : List Char} (hafter : skipBlank after = ',' :: more) :
    readEntries (fuel + 1) entries s =
      readEntries fuel (entries ++ [(key, v)]) (skipBlank more) := by
  simp [readEntries, hkey, hvalue, hafter, put_of_not_mem hnew, bind, Except.bind]

end

/-- `done` are the entries that were read before. -/
theorem readEntries_joined {entries : List (String × α)} (hne : entries ≠ [])
    (h : ∀ entry ∈ entries, Reads (write entry.2) (value entry.2)) (done : List (String × Value))
    (hkeys : (done.map (·.1) ++ entries.map (·.1)).Nodup) {fuel : Nat}
    (hfuel : 2 * (joined depth (entries.map fun entry =>
      writeEntry (entry.1, write entry.2))).length < fuel) :
    readEntries fuel done (joined depth (entries.map fun entry =>
        writeEntry (entry.1, write entry.2)) ++ (newline depth ++ '\x7d' :: rest)) =
      .ok (done ++ entries.map fun entry => (entry.1, value entry.2), rest) := by
  induction entries generalizing fuel done with
  | nil => exact absurd rfl hne
  | cons entry others ih =>
    obtain ⟨hentry, hothers⟩ := List.forall_mem_cons.mp h
    obtain ⟨fuel, rfl⟩ : ∃ n, fuel = n + 1 := Nat.exists_eq_add_one_of_ne_zero (by omega)
    have hnew : entry.1 ∉ done.map (·.1) := by
      intro hmem
      exact (List.nodup_append.mp hkeys).2.2 _ hmem _ (by simp) rfl
    by_cases hlast : others = []
    · subst hlast
      simp only [List.map_cons, List.map_nil, joined_singleton, writeEntry, List.append_assoc,
        List.cons_append, List.length_append, List.length_cons] at hfuel ⊢
      apply readEntries_last hnew (readKey_writeText _ hentry.opens)
        (hentry.reads _ _ (by omega) (ends_newline _ _))
      rw [skipBlank_newline, skipBlank_cons rfl]
    · have hmembers : (entry :: others).map (fun entry => writeEntry (entry.1, write entry.2)) =
          (writeText entry.1 ++ ':' :: ' ' :: write entry.2) ::
            others.map fun entry => writeEntry (entry.1, write entry.2) := rfl
      rw [hmembers, joined_cons depth _ (by simpa)] at hfuel ⊢
      simp only [List.append_assoc, List.cons_append, List.length_append, List.length_cons]
        at hfuel ⊢
      rw [readEntries_next hnew (readKey_writeText _ hentry.opens)
        (hentry.reads _ _ (by omega) (ends_comma _)) (skipBlank_cons rfl _), skipBlank_newline,
        skipBlank_of_opens, ih hlast hothers _ (by simpa using hkeys) (by omega)]
      · simp
      · exact opens_joined (by simpa) (fun _ _ => opens_writeEntry _) depth

theorem reads_table {entries : List (String × α)} (hkeys : (entries.map (·.1)).Nodup)
    (h : ∀ entry ∈ entries, Reads (write entry.2) (value entry.2)) :
    Reads (enclose '\x7b' '\x7d' depth
        (entries.map fun entry => writeEntry (entry.1, write entry.2)))
      (.table (entries.map fun entry => (entry.1, value entry.2))) := by
  apply reads_enclose ⟨'\x7b', rfl, by decide⟩
  · intro hnil fuel rest
    rw [List.map_eq_nil_iff] at hnil
    simp [hnil, readValue, skipBlank_cons, isBlank, pure, Except.pure]
  · intro hne fuel rest hfuel
    have hopens := opens_joined hne (fun _ _ => opens_writeEntry _) depth
    apply readValue_brace
    · rw [skipBlank_newline, skipBlank_of_opens hopens]
      exact hopens.append _
    · rw [skipBlank_newline, skipBlank_of_opens hopens]
      exact readEntries_joined (by simpa using hne) h [] hkeys hfuel

end

theorem reads_writeAt {v : Value} (h : v.Plain) (depth : Nat) :
    Reads (writeAt depth v) v.sortKeys := by
  induction h generalizing depth with
  | null => exact reads_null
  | bool b => exact reads_bool b
  | int h => exact reads_int h
  | text s => exact reads_text s
  | list h ih =>
    rw [writeAt, writeItems_eq_map, sortKeys, sortItems_eq_map]
    exact reads_list fun v hmem => ih v hmem (depth + 1)
  | @table entries hkeys h ih =>
    have hwritten : writeAt depth (.table entries) = enclose '\x7b' '\x7d' depth
        ((byKey entries).map fun entry => writeEntry (entry.1, writeAt (depth + 1) entry.2)) := by
      rw [writeAt, writeEntries_eq_map]
      change enclose _ _ _ ((byKey _).map writeEntry) = _
      rw [byKey_map, List.map_map]
      rfl
    rw [hwritten, sortKeys, sortEntries_eq_map, byKey_map]
    apply reads_table
    · exact ((byKey_perm entries).map _).nodup_iff.mpr hkeys
    · intro entry hmem
      exact ih entry ((byKey_perm entries).mem_iff.mp hmem) (depth + 1)

/-- A plain value is read back from its text, also from a line that ends behind it. -/
theorem read_write {v : Value} (h : v.Plain) {rest : List Char} (hends : Ends rest)
    (hrest : skipBlank rest = []) : read ((write v).toList ++ rest) = .ok v.sortKeys := by
  obtain ⟨hopens, hreads⟩ := reads_writeAt h 0
  have hmark : (writeAt 0 v ++ rest).head? ≠ some '\ufeff' := by
    obtain ⟨c, hc, -, hne, -⟩ := hopens.append rest
    rw [hc]
    simpa using hne
  have hvalue := hreads (2 * (writeAt 0 v ++ rest).length + 1) rest (by simp; omega) hends
  rw [write, String.toList_ofList, read, if_neg hmark, skipBlank_of_opens hopens, hvalue]
  simp [hrest, bind, Except.bind, pure, Except.pure]

theorem print_eq_ok_iff {v : Value} {text : String} :
    print v = .ok text ↔ v.hasOverlong = false ∧ write v = text := by
  unfold print
  cases v.hasOverlong <;> simp [throw, throwThe, MonadExceptOf.throw, pure, Except.pure]

end Json

end CopyLint
