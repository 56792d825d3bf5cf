import CopyLint.Proofs.PatternReading

/-! What a pattern matches. Its regular expression can be made by replacing text: every special
character is escaped, then each three escaped dots are replaced, then the end is. Read as a regular
expression, the outcome matches what the pieces of the pattern spell. -/
namespace CopyLint.Pattern

/-! The expression by replacement. -/

def escape (text : List Char) : List Char :=
  text.flatMap fun c => if isSpecial c then ['\\', c] else [c]

/-- Replaces one text by another wherever it stands, from the left and without overlap. -/
def replaceAll (old new : List Char) : List Char → List Char
  | [] => []
  | c :: rest =>
    if old <+: c :: rest then new ++ replaceAll old new (rest.drop (old.length - 1))
    else c :: replaceAll old new rest
termination_by text => text.length

/-- Three dots become a run of anything; a slash and such a run at the end may be left out. -/
def expression (text : List Char) : List Char :=
  let replaced := replaceAll (escape dots) ['.', '*'] (escape text)
  if ['/', '.', '*'] <:+ replaced then replaced.take (replaced.length - 3) ++ "(/.*)?".toList
  else replaced

theorem replaceAll_append {old : List Char} (hold : old ≠ []) (new text : List Char) :
    replaceAll old new (old ++ text) = new ++ replaceAll old new text := by
  cases old with
  | nil => exact absurd rfl hold
  | cons c old =>
    have hfirst : c :: old <+: c :: (old ++ text) := List.prefix_append (c :: old) text
    rw [List.cons_append, replaceAll, if_pos hfirst]
    simp

theorem replaceAll_cons {old : List Char} (new : List Char) {c : Char} {rest : List Char}
    (h : ¬old <+: c :: rest) : replaceAll old new (c :: rest) = c :: replaceAll old new rest := by
  rw [replaceAll, if_neg h]

theorem escape_special {c : Char} (h : isSpecial c = true) (rest : List Char) :
    escape (c :: rest) = '\\' :: c :: escape rest := by
  simp [escape, h]

theorem escape_plain {c : Char} (h : isSpecial c = false) (rest : List Char) :
    escape (c :: rest) = c :: escape rest := by
  simp [escape, h]

theorem escape_dots : escape dots = ['\\', '.', '\\', '.', '\\', '.'] := by
  decide

theorem not_starts_dot (text rest : List Char) : ¬ '.' :: text <+: escape rest := by
  cases rest with
  | nil => simp [escape]
  | cons a rest =>
    cases ha : isSpecial a with
    | true => simp [escape_special ha]
    | false =>
      rw [escape_plain ha, List.cons_prefix_cons]
      rintro ⟨rfl, -⟩
      cases ha

theorem exists_of_starts_escaped {text rest : List Char} (h : '\\' :: '.' :: text <+: escape rest) :
    ∃ after, rest = '.' :: after ∧ text <+: escape after := by
  cases rest with
  | nil => simp [escape] at h
  | cons a rest =>
    cases ha : isSpecial a with
    | true =>
      simp only [escape_special ha, List.cons_prefix_cons, true_and] at h
      exact ⟨rest, by rw [h.1], h.2⟩
    | false =>
      rw [escape_plain ha, List.cons_prefix_cons] at h
      rw [← h.1] at ha
      cases ha

theorem not_starts_escaped_dots {c : Char} {rest : List Char} (h : ¬dots <+: c :: rest) :
    ¬escape dots <+: '\\' :: c :: escape rest := by
  rw [escape_dots, List.cons_prefix_cons, List.cons_prefix_cons]
  rintro ⟨-, rfl, hdots⟩
  obtain ⟨second, rfl, hsecond⟩ := exists_of_starts_escaped hdots
  obtain ⟨after, rfl, -⟩ := exists_of_starts_escaped hsecond
  exact h ⟨after, rfl⟩

theorem not_starts_escaped_dots_cons (c : Char) (rest : List Char) :
    ¬escape dots <+: c :: escape rest := by
  rw [escape_dots, List.cons_prefix_cons]
  exact fun h => not_starts_dot _ rest h.2

theorem replaceAll_escape (text : List Char) :
    replaceAll (escape dots) ['.', '*'] (escape text) = (tokens text).flatMap Token.regexp := by
  fun_induction tokens text with
  | case1 rest ih =>
    have hescape : escape ('.' :: '.' :: '.' :: rest) = escape dots ++ escape rest := by
      rw [escape_dots]
      rfl
    rw [hescape, replaceAll_append (by simp [escape_dots]), ih]
    rfl
  | case2 c rest hfirst ih =>
    have hfirst : ¬dots <+: c :: rest := not_dots_prefix_iff.mpr hfirst
    cases hc : isSpecial c with
    | true =>
      rw [escape_special hc, replaceAll_cons _ (not_starts_escaped_dots hfirst),
        replaceAll_cons _ (not_starts_escaped_dots_cons c rest), ih]
      simp [Token.regexp, hc]
    | false =>
      rw [escape_plain hc, replaceAll_cons _ (not_starts_escaped_dots_cons c rest), ih]
      simp [Token.regexp, hc]
  | case3 => simp [escape, replaceAll]

theorem regexp_special {c : Char} (h : isSpecial c = true) :
    Token.regexp (.literal c) = ['\\', c] := by
  simp [Token.regexp, h]

theorem regexp_plain {c : Char} (h : isSpecial c = false) : Token.regexp (.literal c) = [c] := by
  simp [Token.regexp, h]

theorem exists_of_ends_slash {ts : List Token} {text : List Char}
    (h : ts.flatMap Token.regexp = text ++ ['/']) : ∃ rest, ts = rest ++ [.literal '/'] := by
  rcases List.eq_nil_or_concat ts with rfl | ⟨rest, t, rfl⟩
  · simp at h
  · rw [List.concat_eq_append] at h ⊢
    rw [List.flatMap_append, List.flatMap_singleton] at h
    have hlast := congrArg List.getLast? h
    cases t with
    | wildcard => simp [Token.regexp] at hlast
    | literal c =>
      have hc : c = '/' := by
        cases hc : isSpecial c with
        | true => simpa [regexp_special hc] using hlast
        | false => simpa [regexp_plain hc] using hlast
      exact ⟨rest, by rw [hc]⟩

theorem suffix_regexp_iff {ts : List Token} :
    ['/', '.', '*'] <:+ ts.flatMap Token.regexp ↔
      ∃ rest, ts = rest ++ [.literal '/', .wildcard] := by
  constructor
  · rintro ⟨text, h⟩
    rcases List.eq_nil_or_concat ts with rfl | ⟨rest, t, rfl⟩
    · simp at h
    · rw [List.concat_eq_append] at h ⊢
      rw [List.flatMap_append, List.flatMap_singleton] at h
      cases t with
      | wildcard =>
        have hslash : rest.flatMap Token.regexp = text ++ ['/'] := by
          have hends : rest.flatMap Token.regexp ++ ['.', '*'] = text ++ ['/'] ++ ['.', '*'] := by
            rw [List.append_assoc]
            exact h.symm
          exact List.append_cancel_right hends
        obtain ⟨before, rfl⟩ := exists_of_ends_slash hslash
        exact ⟨before, by simp⟩
      | literal c =>
        cases hc : isSpecial c with
        | true =>
          have hlast := congrArg (·.dropLast.getLast?) h
          simp [regexp_special hc] at hlast
        | false =>
          have hlast := congrArg List.getLast? h
          simp [regexp_plain hc] at hlast
          rw [← hlast] at hc
          cases hc
  · rintro ⟨rest, rfl⟩
    exact ⟨rest.flatMap Token.regexp, by rw [List.flatMap_append]; rfl⟩

theorem ofString_cases (s : String) :
    (∃ rest, tokens s.toList = rest ++ [.literal '/', .wildcard] ∧ ofString s = ⟨rest, true⟩) ∨
      (¬∃ rest, tokens s.toList = rest ++ [.literal '/', .wildcard]) ∧
        ofString s = ⟨tokens s.toList, false⟩ := by
  unfold ofString
  dsimp only
  split
  · rename_i h
    exact .inl ⟨_, h, rfl⟩
  · rename_i h
    refine .inr ⟨?_, rfl⟩
    rintro ⟨rest, hrest⟩
    apply h
    rw [hrest]
    simp

theorem expression_eq (s : String) :
    expression s.toList = (ofString s).body.flatMap Token.regexp ++
      if (ofString s).subtree then "(/.*)?".toList else [] := by
  unfold expression
  rw [replaceAll_escape]
  rcases ofString_cases s with ⟨rest, htokens, hpattern⟩ | ⟨hnone, hpattern⟩
  · rw [hpattern, if_pos (suffix_regexp_iff.mpr ⟨rest, htokens⟩), htokens]
    simp [Token.regexp, show isSpecial '/' = false from rfl]
  · rw [hpattern, if_neg (fun h => hnone (suffix_regexp_iff.mp h))]
    simp

theorem regexp_eq_expression (s : String) :
    (ofString s).regexp = String.ofList ('^' :: expression s.toList ++ ['$']) := by
  rw [expression_eq, regexp, List.cons_append]

/-! The expression as a regular expression. -/

/-- The texts that an expression matches. It may hold plain and escaped characters, runs of anything
within a line, and a group that may be left out at the end. -/
inductive Denotes : List Char → List Char → Prop where
  | nil : Denotes [] []
  | plain {c : Char} (hc : isSpecial c = false) {expr text : List Char} (h : Denotes expr text) :
      Denotes (c :: expr) (c :: text)
  | escaped (c : Char) {expr text : List Char} (h : Denotes expr text) :
      Denotes ('\\' :: c :: expr) (c :: text)
  | run {fill : List Char} (hfill : '\n' ∉ fill) {expr text : List Char} (h : Denotes expr text) :
      Denotes ('.' :: '*' :: expr) (fill ++ text)
  | absent (group : List Char) : Denotes ('(' :: (group ++ [')', '?'])) []
  | present {group text : List Char} (h : Denotes group text) :
      Denotes ('(' :: (group ++ [')', '?'])) text

theorem denotes_nil_iff {text : List Char} : Denotes [] text ↔ text = [] := by
  constructor
  · intro h
    cases h
    rfl
  · rintro rfl
    exact .nil

theorem denotes_group_iff {group text : List Char} :
    Denotes ('(' :: (group ++ [')', '?'])) text ↔ text = [] ∨ Denotes group text := by
  constructor
  · intro h
    generalize hexpr : '(' :: (group ++ [')', '?']) = expr at h
    cases h with
    | nil => cases hexpr
    | plain hc =>
      cases hexpr
      cases hc
    | escaped => cases hexpr
    | run => cases hexpr
    | absent => exact .inl rfl
    | present h =>
      simp at hexpr
      subst hexpr
      exact .inr h
  · rintro (rfl | h)
    · exact .absent group
    · exact .present h

theorem denotes_literal_iff {c : Char} {expr text : List Char} :
    Denotes (Token.regexp (.literal c) ++ expr) text ↔
      ∃ rest, text = c :: rest ∧ Denotes expr rest := by
  cases hc : isSpecial c with
  | true =>
    rw [regexp_special hc]
    constructor
    · intro h
      cases h with
      | plain hslash => cases hslash
      | escaped _ h => exact ⟨_, rfl, h⟩
    · rintro ⟨rest, rfl, h⟩
      exact .escaped c h
  | false =>
    rw [regexp_plain hc]
    constructor
    · intro h
      cases h with
      | plain _ h => exact ⟨_, rfl, h⟩
      | escaped | run | absent | present => cases hc
    · rintro ⟨rest, rfl, h⟩
      exact .plain hc h

theorem denotes_wildcard_iff {expr text : List Char} :
    Denotes (Token.regexp .wildcard ++ expr) text ↔
      ∃ fill rest, text = fill ++ rest ∧ '\n' ∉ fill ∧ Denotes expr rest := by
  constructor
  · intro h
    cases h with
    | plain hdot => cases hdot
    | run hfill h => exact ⟨_, _, rfl, hfill, h⟩
  · rintro ⟨fill, rest, rfl, hfill, h⟩
    exact .run hfill h

theorem denotes_tokens_iff {ts : List Token} {expr text : List Char} :
    Denotes (ts.flatMap Token.regexp ++ expr) text ↔
      ∃ left right, text = left ++ right ∧ Token.spell ts left ∧ Denotes expr right :=
  Token.iff_exists_spell (P := fun ts text => Denotes (ts.flatMap Token.regexp ++ expr) text)
    (fun c ts text => by
      rw [List.flatMap_cons, List.append_assoc]
      exact denotes_literal_iff)
    (fun ts text => by
      rw [List.flatMap_cons, List.append_assoc]
      exact denotes_wildcard_iff)

theorem denotes_tokens_nil_iff {ts : List Token} {text : List Char} :
    Denotes (ts.flatMap Token.regexp) text ↔ Token.spell ts text := by
  rw [← List.append_nil (ts.flatMap Token.regexp), denotes_tokens_iff]
  constructor
  · rintro ⟨left, right, rfl, hleft, hright⟩
    rwa [denotes_nil_iff.mp hright, List.append_nil]
  · intro h
    exact ⟨text, [], by simp, h, .nil⟩

theorem denotes_pattern_iff {p : Pattern} {text : List Char} :
    Denotes (p.body.flatMap Token.regexp ++ if p.subtree then "(/.*)?".toList else []) text ↔
      p.spells text := by
  obtain ⟨body, subtree⟩ := p
  cases subtree with
  | false =>
    rw [if_neg Bool.false_ne_true, List.append_nil, denotes_tokens_nil_iff]
    simp [spells]
  | true =>
    have hgroup : ∀ right, Denotes "(/.*)?".toList right ↔
        right = [] ∨ Token.spell [.literal '/', .wildcard] right := by
      intro right
      rw [← denotes_tokens_nil_iff]
      exact @denotes_group_iff ['/', '.', '*'] right
    simp only [if_true, denotes_tokens_iff, hgroup, spells, Bool.true_and, Bool.or_eq_true,
      Token.spell_append]
    constructor
    · rintro ⟨left, right, rfl, hleft, rfl | hright⟩
      · rw [List.append_nil]
        exact .inl hleft
      · exact .inr ⟨left, right, rfl, hleft, hright⟩
    · rintro (h | ⟨left, right, rfl, hleft, hright⟩)
      · exact ⟨text, [], by simp, h, .inl rfl⟩
      · exact ⟨left, right, rfl, hleft, .inr hright⟩

theorem spells_ofString_iff {s : String} {text : List Char} :
    (ofString s).spells text ↔ Token.spell (tokens s.toList) text ∨
      ∃ rest, tokens s.toList = rest ++ [.literal '/', .wildcard] ∧ Token.spell rest text := by
  rcases ofString_cases s with ⟨rest, htokens, hpattern⟩ | ⟨hnone, hpattern⟩
  · rw [hpattern, htokens]
    simp only [spells, Bool.or_eq_true, Bool.true_and]
    constructor
    · rintro (h | h)
      · exact .inr ⟨rest, rfl, h⟩
      · exact .inl h
    · rintro (h | ⟨other, heq, h⟩)
      · exact .inr h
      · rw [List.append_cancel_right heq]
        exact .inl h
  · rw [hpattern]
    simp only [spells, Bool.false_and, Bool.or_false]
    constructor
    · exact .inl
    · rintro (h | ⟨rest, heq, -⟩)
      · exact h
      · exact absurd ⟨rest, heq⟩ hnone

theorem isMatch_iff_spells {p : Pattern} {name : String} (hline : '\n' ∉ name.toList) :
    p.isMatch name ↔ p.spells name.toList := by
  have hlast : name.toList.getLast? ≠ some '\n' := fun h => hline (List.mem_of_getLast? h)
  simp [isMatch, hlast]

/-- A pattern has one reading. It matches a name of one line exactly if the name is made of the
pieces, with any text for each wildcard; or, for a pattern that ends with a slash and a wildcard, if
the name is made of the pieces before that slash. This is also what its text means as a regular
expression, once special characters are escaped and the wildcards replaced. -/
theorem match_is_wildcard_substitution (s name : String) (hline : '\n' ∉ name.toList) :
    ∃ pieces, (∀ others, Reads s.toList others ↔ others = pieces) ∧
      (ofString s).regexp = String.ofList ('^' :: expression s.toList ++ ['$']) ∧
      ((ofString s).isMatch name ↔ Denotes (expression s.toList) name.toList) ∧
      ((ofString s).isMatch name ↔ Fills pieces name.toList ∨
        ∃ init piece, pieces = init ++ [piece ++ ['/'], []] ∧
          Fills (init ++ [piece]) name.toList) := by
  obtain ⟨pieces, hreads⟩ : ∃ pieces, Reads s.toList pieces := ⟨_, reads_split s.toList⟩
  refine ⟨pieces, fun others => ⟨fun h => ?_, ?_⟩, regexp_eq_expression s, ?_, ?_⟩
  · exact h.eq_split.trans hreads.eq_split.symm
  · rintro rfl
    exact hreads
  · rw [expression_eq, denotes_pattern_iff, isMatch_iff_spells hline]
  · rw [isMatch_iff_spells hline, spells_ofString_iff, hreads.tokens_eq,
      spell_ofPieces_iff hreads.ne_nil hline]
    simp only [ofPieces_eq_subtree_iff hreads.ne_nil]
    apply or_congr_right
    constructor
    · rintro ⟨_, ⟨init, piece, hpieces, rfl⟩, h⟩
      exact ⟨init, piece, hpieces, (spell_ofPieces_iff (by simp) hline).mp h⟩
    · rintro ⟨init, piece, hpieces, h⟩
      exact ⟨_, ⟨init, piece, hpieces, rfl⟩, (spell_ofPieces_iff (by simp) hline).mpr h⟩

/-- Of four dots the last is a dot, and a backslash is a backslash; the slash before the final
wildcard is left out with it. -/
theorem match_is_wildcard_substitution_dots :
    '\n' ∉ "a-x.\\b".toList ∧
    Reads "a....\\b/...".toList [['a'], ['.', '\\', 'b', '/'], []] ∧
    (ofString "a....\\b/...").isMatch "a-x.\\b" = true := by
  have hline : '\n' ∉ "a-x.\\b".toList := by decide
  have hreads : Reads "a....\\b/...".toList [['a'], ['.', '\\', 'b', '/'], []] :=
    .next ['a'] (by decide) (.next ['.', '\\', 'b', '/'] (by decide) (.last (by decide)))
  refine ⟨hline, hreads, ?_⟩
  obtain ⟨pieces, hpieces, _, _, hmatch⟩ :=
    match_is_wildcard_substitution "a....\\b/..." "a-x.\\b" hline
  cases (hpieces _).mp hreads
  apply hmatch.mpr
  right
  exact ⟨[['a']], ['.', '\\', 'b'], rfl, .next ['a'] ['-', 'x'] (.last _)⟩

end CopyLint.Pattern
