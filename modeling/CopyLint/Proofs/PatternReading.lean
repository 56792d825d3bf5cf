import CopyLint.Pattern

/-! How a pattern is read. Three dots in a row are a wildcard, taken from the left; between the
wildcards stand pieces of text, and a pattern has only one such reading. A text is spelled by the
pieces with any text in the place of each wildcard. -/
namespace CopyLint.Pattern

def dots : List Char :=
  ['.', '.', '.']

/-- The pieces around the wildcards of a pattern. A wildcard stands at the first three dots in a
row, and reading goes on behind them. -/
inductive Reads : List Char → List (List Char) → Prop where
  | last {piece : List Char} (h : ¬dots <:+: piece) : Reads piece [piece]
  | next (piece : List Char) {rest : List Char} {pieces : List (List Char)}
      (h : ¬dots <:+: piece ++ ['.', '.']) (hrest : Reads rest pieces) :
      Reads (piece ++ dots ++ rest) (piece :: pieces)

/-- The text is made of the pieces, with any text in between. -/
inductive Fills : List (List Char) → List Char → Prop where
  | last (piece : List Char) : Fills [piece] piece
  | next (piece fill : List Char) {pieces : List (List Char)} {text : List Char}
      (h : Fills pieces text) : Fills (piece :: pieces) (piece ++ fill ++ text)

def ofPieces : List (List Char) → List Token
  | [] => []
  | [piece] => piece.map .literal
  | piece :: next :: rest => piece.map .literal ++ .wildcard :: ofPieces (next :: rest)

theorem ofPieces_cons {pieces : List (List Char)} (h : pieces ≠ []) (piece : List Char) :
    ofPieces (piece :: pieces) = piece.map .literal ++ .wildcard :: ofPieces pieces := by
  cases pieces with
  | nil => exact absurd rfl h
  | cons next rest => rfl

theorem not_dots_prefix_iff {c : Char} {rest : List Char} :
    ¬dots <+: c :: rest ↔ ∀ after, c = '.' → rest = '.' :: '.' :: after → False := by
  constructor
  · rintro h after rfl rfl
    exact h ⟨after, rfl⟩
  · rintro h ⟨after, heq⟩
    cases heq
    exact h after rfl rfl

theorem tokens_cons {c : Char} {rest : List Char} (h : ¬dots <+: c :: rest) :
    tokens (c :: rest) = .literal c :: tokens rest := by
  rw [tokens]
  exact not_dots_prefix_iff.mp h

theorem tokens_of_no_dots {piece : List Char} (h : ¬dots <:+: piece) :
    tokens piece = piece.map .literal := by
  induction piece with
  | nil => rfl
  | cons c rest ih =>
    rw [tokens_cons fun hdots => h hdots.isInfix, ih fun hdots => h (List.infix_cons hdots)]
    rfl

theorem prefix_append_two {c : Char} {piece rest : List Char}
    (h : dots <+: c :: (piece ++ dots ++ rest)) : dots <+: c :: (piece ++ ['.', '.']) := by
  match piece with
  | [] => simpa [dots] using h
  | [x] => simpa [dots] using h
  | x :: y :: piece => simpa [dots] using h

theorem tokens_append {piece : List Char} (h : ¬dots <:+: piece ++ ['.', '.']) (rest : List Char) :
    tokens (piece ++ dots ++ rest) = piece.map .literal ++ .wildcard :: tokens rest := by
  induction piece with
  | nil => rfl
  | cons c piece ih =>
    rw [List.cons_append] at h
    have hfirst : ¬dots <+: c :: (piece ++ dots ++ rest) := fun hdots =>
      h (prefix_append_two hdots).isInfix
    rw [List.cons_append, List.cons_append, tokens_cons hfirst,
      ih fun hdots => h (List.infix_cons hdots)]
    rfl

variable {text : List Char} {pieces : List (List Char)}

theorem Reads.ne_nil (h : Reads text pieces) : pieces ≠ [] := by
  cases h <;> simp

theorem Reads.tokens_eq (h : Reads text pieces) : tokens text = ofPieces pieces := by
  induction h with
  | last h => exact tokens_of_no_dots h
  | next piece h hrest ih => rw [tokens_append h, ih, ofPieces_cons hrest.ne_nil]

/-! The pieces are found again in the tokens. -/

def split : List Token → List (List Char)
  | [] => [[]]
  | .literal c :: rest => (split rest).modifyHead (c :: ·)
  | .wildcard :: rest => [] :: split rest

theorem split_ne_nil (ts : List Token) : split ts ≠ [] := by
  induction ts with
  | nil => simp [split]
  | cons t rest ih => cases t <;> simp [split, ih]

theorem split_map_append (piece : List Char) (ts : List Token) :
    split (piece.map .literal ++ ts) = (split ts).modifyHead (piece ++ ·) := by
  induction piece with
  | nil =>
    rw [List.map_nil, List.nil_append]
    cases split ts <;> rfl
  | cons c piece ih =>
    rw [List.map_cons, List.cons_append, split, ih]
    cases split ts <;> rfl

theorem split_ofPieces (h : pieces ≠ []) : split (ofPieces pieces) = pieces := by
  induction pieces with
  | nil => exact absurd rfl h
  | cons piece rest ih =>
    cases rest with
    | nil => simpa [ofPieces, split] using split_map_append piece []
    | cons next rest =>
      rw [ofPieces, split_map_append, split, ih (List.cons_ne_nil next rest)]
      simp

theorem ofPieces_cons_cons (c : Char) (piece : List Char) (pieces : List (List Char)) :
    ofPieces ((c :: piece) :: pieces) = .literal c :: ofPieces (piece :: pieces) := by
  cases pieces <;> rfl

theorem ofPieces_split (ts : List Token) : ofPieces (split ts) = ts := by
  induction ts with
  | nil => rfl
  | cons t rest ih =>
    cases t with
    | wildcard => rw [split, ofPieces_cons (split_ne_nil rest), ih, List.map_nil, List.nil_append]
    | literal c =>
      rw [split]
      cases hsplit : split rest with
      | nil => exact absurd hsplit (split_ne_nil rest)
      | cons piece pieces =>
        rw [hsplit] at ih
        rw [List.modifyHead_cons, ofPieces_cons_cons, ih]

/-! Every pattern has a reading, and only one. -/

theorem Reads.cons {c : Char} {rest piece : List Char} (hfirst : ¬dots <+: c :: rest)
    (h : Reads rest (piece :: pieces)) : Reads (c :: rest) ((c :: piece) :: pieces) := by
  cases h with
  | last h =>
    apply Reads.last
    rw [List.infix_cons_iff]
    rintro (hdots | hdots)
    · exact hfirst hdots
    · exact h hdots
  | @next _ rest _ h hrest =>
    apply Reads.next (c :: piece) _ hrest
    rw [List.cons_append, List.infix_cons_iff]
    rintro (hdots | hdots)
    · apply hfirst
      apply hdots.trans
      simp [dots]
    · exact h hdots

theorem reads_split (text : List Char) : Reads text (split (tokens text)) := by
  fun_induction tokens text with
  | case1 rest ih => exact .next [] (by decide) ih
  | case2 c rest hfirst ih =>
    rw [split]
    cases hsplit : split (tokens rest) with
    | nil => exact absurd hsplit (split_ne_nil _)
    | cons piece pieces =>
      rw [hsplit] at ih
      exact ih.cons (not_dots_prefix_iff.mpr hfirst)
  | case3 => exact .last (by decide)

theorem Reads.eq_split (h : Reads text pieces) : pieces = split (tokens text) := by
  rw [h.tokens_eq, split_ofPieces h.ne_nil]

/-! Spelled texts. -/

namespace Token

theorem spell_nil_iff : spell [] text ↔ text = [] := by
  cases text <;> simp [spell]

theorem spell_literal_iff {c : Char} {ts : List Token} :
    spell (.literal c :: ts) text ↔ ∃ rest, text = c :: rest ∧ spell ts rest := by
  cases text with
  | nil => simp [spell]
  | cons a text =>
    rw [spell, Bool.and_eq_true, decide_eq_true_iff]
    constructor
    · rintro ⟨rfl, h⟩
      exact ⟨text, rfl, h⟩
    · rintro ⟨rest, heq, h⟩
      cases heq
      exact ⟨rfl, h⟩

theorem spell_wildcard_iff {ts : List Token} :
    spell (.wildcard :: ts) text ↔
      ∃ fill rest, text = fill ++ rest ∧ '\n' ∉ fill ∧ spell ts rest := by
  induction text with
  | nil =>
    rw [spell]
    constructor
    · intro h
      exact ⟨[], [], rfl, List.not_mem_nil, h⟩
    · rintro ⟨fill, rest, heq, -, h⟩
      rw [(List.append_eq_nil_iff.mp heq.symm).2] at h
      exact h
  | cons a text ih =>
    rw [spell, Bool.or_eq_true, Bool.and_eq_true, ih, decide_eq_true_iff]
    constructor
    · rintro (h | ⟨hline, fill, rest, rfl, hfill, h⟩)
      · exact ⟨[], a :: text, rfl, List.not_mem_nil, h⟩
      · exact ⟨a :: fill, rest, rfl, by simp [hfill, hline.symm], h⟩
    · rintro ⟨fill, rest, heq, hfill, h⟩
      cases fill with
      | nil =>
        left
        rwa [heq]
      | cons b fill =>
        cases heq
        rw [List.mem_cons, not_or] at hfill
        exact .inr ⟨Ne.symm hfill.1, fill, rest, rfl, hfill.2, h⟩

/-- Whatever takes tokens one by one as spelling does takes a text that they spell, and goes on with
the rest of the text when no token is left. -/
theorem iff_exists_spell {P : List Token → List Char → Prop}
    (hliteral : ∀ c ts text, P (.literal c :: ts) text ↔ ∃ rest, text = c :: rest ∧ P ts rest)
    (hwildcard : ∀ ts text, P (.wildcard :: ts) text ↔
      ∃ fill rest, text = fill ++ rest ∧ '\n' ∉ fill ∧ P ts rest)
    {ts : List Token} :
    P ts text ↔ ∃ left right, text = left ++ right ∧ spell ts left ∧ P [] right := by
  induction ts generalizing text with
  | nil =>
    constructor
    · intro h
      exact ⟨[], text, rfl, spell_nil_iff.mpr rfl, h⟩
    · rintro ⟨left, right, rfl, hleft, h⟩
      rwa [spell_nil_iff.mp hleft]
  | cons t ts ih =>
    cases t with
    | literal c =>
      simp only [hliteral, spell_literal_iff, ih]
      constructor
      · rintro ⟨_, rfl, left, right, rfl, hleft, hright⟩
        exact ⟨c :: left, right, rfl, ⟨left, rfl, hleft⟩, hright⟩
      · rintro ⟨_, right, rfl, ⟨left, rfl, hleft⟩, hright⟩
        exact ⟨left ++ right, rfl, left, right, rfl, hleft, hright⟩
    | wildcard =>
      simp only [hwildcard, spell_wildcard_iff, ih]
      constructor
      · rintro ⟨fill, _, rfl, hfill, left, right, rfl, hleft, hright⟩
        exact ⟨fill ++ left, right, by simp, ⟨fill, left, rfl, hfill, hleft⟩, hright⟩
      · rintro ⟨_, right, rfl, ⟨fill, left, rfl, hfill, hleft⟩, hright⟩
        exact ⟨fill, left ++ right, by simp, hfill, left, right, rfl, hleft, hright⟩

theorem spell_append {ts us : List Token} :
    spell (ts ++ us) text ↔ ∃ left right, text = left ++ right ∧ spell ts left ∧ spell us right :=
  iff_exists_spell (P := fun ts text => spell (ts ++ us) text = true)
    (fun _ _ _ => spell_literal_iff) (fun _ _ => spell_wildcard_iff)

theorem spell_map_literal_iff {piece : List Char} :
    spell (piece.map .literal) text ↔ text = piece := by
  induction piece generalizing text with
  | nil => exact spell_nil_iff
  | cons c piece ih => simp [spell_literal_iff, ih]

end Token

theorem Fills.ne_nil (h : Fills pieces text) : pieces ≠ [] := by
  cases h <;> simp

theorem spell_ofPieces_iff (hpieces : pieces ≠ []) (hline : '\n' ∉ text) :
    Token.spell (ofPieces pieces) text ↔ Fills pieces text := by
  induction pieces generalizing text with
  | nil => exact absurd rfl hpieces
  | cons piece pieces ih =>
    by_cases hlast : pieces = []
    · subst hlast
      rw [ofPieces, Token.spell_map_literal_iff]
      constructor
      · rintro rfl
        exact .last text
      · intro h
        cases h with
        | last => rfl
        | next _ _ h => exact absurd rfl h.ne_nil
    · rw [ofPieces_cons hlast, Token.spell_append]
      simp only [Token.spell_map_literal_iff, Token.spell_wildcard_iff]
      constructor
      · rintro ⟨_, _, rfl, rfl, fill, rest, rfl, -, h⟩
        simp only [List.mem_append, not_or] at hline
        rw [← List.append_assoc]
        exact .next _ fill ((ih hlast hline.2.2).mp h)
      · intro h
        cases h with
        | last => exact absurd rfl hlast
        | @next _ fill _ rest h =>
          simp only [List.mem_append, not_or] at hline
          exact ⟨piece, fill ++ rest, List.append_assoc _ _ _, rfl, fill, rest, rfl, hline.1.2,
            (ih hlast hline.2).mpr h⟩

/-! Patterns that end with a slash and a wildcard. -/

theorem ofPieces_subtree (init : List (List Char)) (piece : List Char) :
    ofPieces (init ++ [piece ++ ['/'], []]) =
      ofPieces (init ++ [piece]) ++ [.literal '/', .wildcard] := by
  induction init with
  | nil => simp [ofPieces]
  | cons first init ih =>
    rw [List.cons_append, ofPieces_cons (by simp), ih, List.cons_append, ofPieces_cons (by simp)]
    simp

theorem ofPieces_eq_subtree_iff (hpieces : pieces ≠ []) {ts : List Token} :
    ofPieces pieces = ts ++ [.literal '/', .wildcard] ↔
      ∃ init piece, pieces = init ++ [piece ++ ['/'], []] ∧ ts = ofPieces (init ++ [piece]) := by
  constructor
  · intro h
    have hlast := List.dropLast_concat_getLast (split_ne_nil ts)
    have hts : ts = ofPieces ((split ts).dropLast ++ [(split ts).getLast (split_ne_nil ts)]) := by
      rw [hlast, ofPieces_split]
    refine ⟨_, _, ?_, hts⟩
    rw [hts, ← ofPieces_subtree] at h
    rw [← split_ofPieces hpieces, h, split_ofPieces (by simp)]
  · rintro ⟨init, piece, rfl, rfl⟩
    exact ofPieces_subtree init piece

end CopyLint.Pattern
