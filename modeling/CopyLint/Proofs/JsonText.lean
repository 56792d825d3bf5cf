import CopyLint.Json.Reader
import CopyLint.Json.Writer

/-! The texts and integers of a JSON text. What is written of a text is read back character by
character, whether it stands for itself, after a backslash, as one escape or as a pair of them. -/
namespace CopyLint.Json

/-! Escapes of four digits. -/

theorem hexValue?_digitChar : ∀ d < 16, hexValue? (Nat.digitChar d) = some d := by
  decide

theorem hexDigits_four (n : Nat) : Text.hexDigits 4 n =
    [(n / 4096 % 16).digitChar, (n / 256 % 16).digitChar, (n / 16 % 16).digitChar,
      (n % 16).digitChar] := by
  simp [Text.hexDigits, List.range_succ]

theorem hexQuad?_hexDigits {unit : Nat} (h : unit < 0x10000) (next : Char) (rest : List Char) :
    hexQuad? (Text.hexDigits 4 unit ++ next :: rest) = some (unit, next :: rest) := by
  have hdigit (k : Nat) : hexValue? (k % 16).digitChar = some (k % 16) :=
    hexValue?_digitChar _ (Nat.mod_lt k (by decide))
  simp only [hexDigits_four, List.cons_append, List.nil_append, hexQuad?, hdigit,
    Option.bind_eq_bind, Option.bind_some, Option.pure_def, Option.some.injEq, Prod.mk.injEq,
    and_true]
  omega

theorem readUnit_hexDigits {unit : Nat} (h : unit < 0x10000) (hhigh : isHighSurrogate unit = false)
    (next : Char) (rest : List Char) :
    readUnit (Text.hexDigits 4 unit ++ next :: rest) = .ok (unitChar unit, next :: rest) := by
  simp [readUnit, hexQuad?_hexDigits h, hhigh, pure, Except.pure]

theorem readUnit_pair {high low : Nat} (hhigh : isHighSurrogate high = true)
    (hlow : isLowSurrogate low = true) (next : Char) (rest : List Char) :
    readUnit (Text.hexDigits 4 high ++ (unitEscape low ++ next :: rest)) =
      .ok (Char.ofNat (0x10000 + (high - 0xD800) * 0x400 + (low - 0xDC00)), next :: rest) := by
  have hhigh' : high < 0x10000 := by
    simp [isHighSurrogate] at hhigh
    omega
  have hlow' : low < 0x10000 := by
    simp [isLowSurrogate] at hlow
    omega
  have hsecond : lowHalf? (unitEscape low ++ next :: rest) = .ok (some (low, next :: rest)) := by
    simp [unitEscape, lowHalf?, hexQuad?_hexDigits hlow', hlow, pure, Except.pure]
  simp only [unitEscape, List.cons_append] at hsecond ⊢
  simp [readUnit, hexQuad?_hexDigits hhigh', hhigh, hsecond, bind, Except.bind, pure, Except.pure]

theorem unitChar_toNat (c : Char) : unitChar c.toNat = c := by
  have hvalid : c.toNat.isValidChar := c.valid
  simp [unitChar, hvalid]

theorem not_isHighSurrogate_toNat (c : Char) : isHighSurrogate c.toNat = false := by
  have hvalid : c.toNat.isValidChar := c.valid
  simp [Nat.isValidChar] at hvalid
  simp [isHighSurrogate]
  omega

/-! Characters of a text. -/

def withChar (c : Char) (read : Except Fault (List Char × List Char)) :
    Except Fault (List Char × List Char) :=
  read.map fun (chars, rest) => (c :: chars, rest)

theorem readText_backslash {opening s after : List Char} {c : Char}
    (h : readEscape opening s = .ok (c, after)) :
    readText opening ('\\' :: s) = withChar c (readText opening after) := by
  rw [readText]
  simp only [Char.reduceEq, if_false, if_true]
  split
  · rename_i heq
    cases h.symm.trans heq
  · rename_i heq
    cases h.symm.trans heq
    cases readText opening after <;> rfl

theorem readText_plain {c : Char} (hquote : c ≠ '"') (hslash : c ≠ '\\') (hcontrol : 0x20 ≤ c.toNat)
    (opening s : List Char) : readText opening (c :: s) = withChar c (readText opening s) := by
  have hcontrol' : ¬c.toNat < 0x20 := by omega
  rw [readText, if_neg hquote, if_neg hslash, if_neg hcontrol']
  cases readText opening s <;> rfl

theorem readText_unitEscape {c : Char} (h : c.toNat < 0x10000) (opening : List Char) (next : Char)
    (rest : List Char) : readText opening (unitEscape c.toNat ++ next :: rest) =
      withChar c (readText opening (next :: rest)) := by
  rw [unitEscape, List.cons_append, List.cons_append]
  apply readText_backslash
  rw [readEscape, if_pos rfl, readUnit_hexDigits h (not_isHighSurrogate_toNat c), unitChar_toNat]

theorem readText_pair {c : Char} (h : ¬c.toNat < 0x10000) (opening : List Char) (next : Char)
    (rest : List Char) :
    readText opening (unitEscape (0xD800 + (c.toNat - 0x10000) / 0x400) ++
      (unitEscape (0xDC00 + (c.toNat - 0x10000) % 0x400) ++ next :: rest)) =
        withChar c (readText opening (next :: rest)) := by
  have hvalid : c.toNat.isValidChar := c.valid
  simp only [Nat.isValidChar] at hvalid
  -- Only the first escape is opened; the second belongs to what the first is read with.
  change readText opening ('\\' :: 'u' :: (Text.hexDigits 4 _ ++ _)) = _
  apply readText_backslash
  rw [readEscape, if_pos rfl, readUnit_pair]
  · have hcode : 0x10000 + (0xD800 + (c.toNat - 0x10000) / 0x400 - 0xD800) * 0x400 +
        (0xDC00 + (c.toNat - 0x10000) % 0x400 - 0xDC00) = c.toNat := by
      omega
    rw [hcode, Char.ofNat_toNat]
  · simp [isHighSurrogate]
    omega
  · simp [isLowSurrogate]
    omega

def shortEscaped : List Char :=
  ['"', '\\', '\n', '\r', '\t', '\x08', '\x0c']

theorem readText_shortEscape {c : Char} (h : c ∈ shortEscaped) (opening s : List Char) :
    readText opening (escapeChar c ++ s) = withChar c (readText opening s) := by
  simp only [shortEscaped, List.mem_cons, List.not_mem_nil, or_false] at h
  rcases h with rfl | rfl | rfl | rfl | rfl | rfl | rfl
  all_goals exact readText_backslash rfl

theorem escapeChar_of_not_mem {c : Char} (h : c ∉ shortEscaped) : escapeChar c =
    if ' ' ≤ c ∧ c ≤ '~' then [c]
    else if c.toNat < 0x10000 then unitEscape c.toNat
    else unitEscape (0xD800 + (c.toNat - 0x10000) / 0x400) ++
      unitEscape (0xDC00 + (c.toNat - 0x10000) % 0x400) := by
  simp only [shortEscaped, List.mem_cons, List.not_mem_nil, or_false, not_or] at h
  simp [escapeChar, h]

theorem readText_escapeChar (c : Char) (opening : List Char) (next : Char) (rest : List Char) :
    readText opening (escapeChar c ++ next :: rest) =
      withChar c (readText opening (next :: rest)) := by
  by_cases hshort : c ∈ shortEscaped
  · exact readText_shortEscape hshort opening _
  · rw [escapeChar_of_not_mem hshort]
    simp only [shortEscaped, List.mem_cons, List.not_mem_nil, or_false, not_or] at hshort
    split
    · rename_i hplain
      exact readText_plain hshort.1 hshort.2.1 hplain.1 opening _
    · split
      · rename_i hunit
        exact readText_unitEscape hunit opening next rest
      · rename_i hpair
        rw [List.append_assoc]
        exact readText_pair hpair opening next rest

theorem readText_flatMap_escapeChar (chars opening rest : List Char) :
    readText opening (chars.flatMap escapeChar ++ '"' :: rest) = .ok (chars, rest) := by
  induction chars with
  | nil =>
    rw [List.flatMap_nil, List.nil_append, readText, if_pos rfl]
    rfl
  | cons c chars ih =>
    rw [List.flatMap_cons, List.append_assoc]
    obtain ⟨next, behind, hnext⟩ : ∃ next behind,
        chars.flatMap escapeChar ++ '"' :: rest = next :: behind :=
      List.exists_cons_of_ne_nil (by simp)
    rw [hnext] at ih ⊢
    rw [readText_escapeChar, ih]
    rfl

/-! Integers. -/

/-- What may follow a value that is written inside of another one, or by itself. -/
def Ends (rest : List Char) : Prop :=
  ∀ c ∈ rest.head?, c = ',' ∨ c = '\n'

theorem Ends.not_isDigit {c : Char} {rest : List Char} (h : Ends (c :: rest)) :
    c.isDigit = false ∧ c ≠ '.' ∧ c ≠ 'e' ∧ c ≠ 'E' := by
  rcases h c rfl with rfl | rfl <;> decide

theorem takeWhile_isDigit_append {digits rest : List Char}
    (hdigits : ∀ c ∈ digits, c.isDigit = true) (hrest : Ends rest) :
    (digits ++ rest).takeWhile Char.isDigit = digits := by
  rw [List.takeWhile_append_of_pos hdigits]
  cases rest with
  | nil => simp
  | cons c rest => simp [hrest.not_isDigit]

theorem dropWhile_isDigit_append {digits rest : List Char}
    (hdigits : ∀ c ∈ digits, c.isDigit = true) (hrest : Ends rest) :
    (digits ++ rest).dropWhile Char.isDigit = rest := by
  rw [List.dropWhile_append_of_pos hdigits]
  cases rest with
  | nil => rfl
  | cons c rest => simp [hrest.not_isDigit]

theorem exists_toDigits_eq_cons {n : Nat} (h : 0 < n) :
    ∃ first others, Nat.toDigits 10 n = first :: others ∧ first ≠ '0' := by
  induction n using Nat.strongRecOn with
  | ind n ih =>
    by_cases hsmall : n < 10
    · refine ⟨_, [], Nat.toDigits_of_lt_base hsmall, ?_⟩
      simp
      omega
    · obtain ⟨first, others, hdigits, hfirst⟩ := ih (n / 10) (by omega) (by omega)
      refine ⟨first, others ++ [(n % 10).digitChar], ?_, hfirst⟩
      rw [Nat.toDigits_of_base_le (by decide) (by omega), hdigits]
      rfl

theorem isDigit_toDigits (n : Nat) : ∀ c ∈ Nat.toDigits 10 n, c.isDigit = true :=
  fun _ => Nat.isDigit_of_mem_toDigits (by decide) (by decide)

theorem value_toDigits (n : Nat) : Digits.value (Nat.toDigits 10 n) = n := by
  have h := Nat.ofDigitChars_ten_toDigits (n := n)
  rwa [Nat.ofDigitChars_eq_foldl] at h

theorem wholeDigits?_toDigits (n : Nat) {rest : List Char} (hrest : Ends rest) :
    wholeDigits? (Nat.toDigits 10 n ++ rest) = some (Nat.toDigits 10 n, rest) := by
  by_cases hzero : n = 0
  · subst hzero
    rfl
  · obtain ⟨first, others, hdigits, hfirst⟩ := exists_toDigits_eq_cons (Nat.pos_of_ne_zero hzero)
    have hdigit := isDigit_toDigits n
    rw [hdigits, List.forall_mem_cons] at hdigit
    rw [hdigits, List.cons_append]
    unfold wholeDigits?
    split
    · rename_i heq
      cases heq
      exact absurd rfl hfirst
    · rename_i heq
      cases heq
      rw [if_pos hdigit.1, takeWhile_isDigit_append hdigit.2 hrest,
        dropWhile_isDigit_append hdigit.2 hrest]
    · rename_i heq
      cases heq

theorem fractionDigits_of_ends {rest : List Char} (h : Ends rest) :
    fractionDigits rest = ([], rest) := by
  unfold fractionDigits
  split
  · exact absurd rfl h.not_isDigit.2.1
  · rfl

theorem exponent?_of_ends {rest : List Char} (h : Ends rest) : exponent? rest = none := by
  cases rest with
  | nil => rfl
  | cons c rest => simp [exponent?, h.not_isDigit]

theorem toDigits_append_ne_minus (n : Nat) (rest body : List Char) :
    Nat.toDigits 10 n ++ rest ≠ '-' :: body := by
  obtain ⟨first, others, hdigits⟩ :=
    List.exists_cons_of_ne_nil (Nat.toDigits_ne_nil (b := 10) (n := n))
  have hdigit : first.isDigit = true := isDigit_toDigits n first (by simp [hdigits])
  rw [hdigits]
  intro heq
  cases heq
  exact absurd hdigit (by decide)

section

variable {n : Nat} (h : (Nat.toDigits 10 n).length ≤ Digits.limit) {rest : List Char}
  (hrest : Ends rest)

include h hrest

theorem readNumber_toDigits :
    readNumber (Nat.toDigits 10 n ++ rest) = .ok (.int n, rest) := by
  have hlimit : ¬Digits.limit < (Nat.toDigits 10 n).length := by omega
  unfold readNumber
  split
  rename_i negative body hsign
  have hunsigned : (negative, body) = (false, Nat.toDigits 10 n ++ rest) := by
    rw [← hsign]
    split
    · rename_i heq
      exact absurd heq (toDigits_append_ne_minus n rest _)
    · rfl
  cases hunsigned
  simp [wholeDigits?_toDigits n hrest, fractionDigits_of_ends hrest, exponent?_of_ends hrest,
    hlimit, value_toDigits, pure, Except.pure]

theorem readNumber_minus_toDigits :
    readNumber ('-' :: (Nat.toDigits 10 n ++ rest)) = .ok (.int (-n), rest) := by
  have hlimit : ¬Digits.limit < (Nat.toDigits 10 n).length := by omega
  simp [readNumber, wholeDigits?_toDigits n hrest, fractionDigits_of_ends hrest,
    exponent?_of_ends hrest, hlimit, value_toDigits, pure, Except.pure]

end

theorem toList_toString (n : Int) : (toString n).toList =
    if n < 0 then '-' :: Nat.toDigits 10 n.natAbs else Nat.toDigits 10 n.natAbs := by
  cases n with
  | ofNat n => exact String.toList_ofList
  | negSucc n =>
    rw [if_pos (Int.negSucc_lt_zero n)]
    change ("-" ++ String.ofList (Nat.toDigits 10 (n + 1))).toList = _
    simp [Int.natAbs_negSucc]

theorem readNumber_toString {n : Int} (h : Digits.isOverlong n = false) {rest : List Char}
    (hrest : Ends rest) : readNumber ((toString n).toList ++ rest) = .ok (.int n, rest) := by
  have hlength : (Nat.toDigits 10 n.natAbs).length ≤ Digits.limit := by
    simpa [Digits.isOverlong] using h
  rw [toList_toString]
  by_cases hneg : n < 0
  · rw [if_pos hneg, List.cons_append, readNumber_minus_toDigits hlength hrest,
      Int.ofNat_natAbs_of_nonpos (by omega), Int.neg_neg]
  · rw [if_neg hneg, readNumber_toDigits hlength hrest, Int.natAbs_of_nonneg (by omega)]

end CopyLint.Json
