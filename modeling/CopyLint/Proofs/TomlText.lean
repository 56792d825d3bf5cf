import CopyLint.Toml.Reader
import Mathlib.Data.List.Infix

/-! Where the reader of TOML texts can fail. Every part of it hands on an end of the text that it
was given. So a fault that is found far down stands somewhere in the whole text. Besides a text of the
wrong form there are two: an integer of too many digits, which stand there in a row, and too many
brackets in one another. -/
namespace CopyLint.Toml

/-- Digits stand in a row somewhere in the text, that many if underscores do not count. -/
def Spells (s : List Char) (n : Nat) : Prop :=
  ∃ run, run <:+: s ∧ (∀ c ∈ run, c.isDigit ∨ c = '_') ∧ (run.filter Char.isDigit).length = n

def isBracket (c : Char) : Bool :=
  c = '[' || c = '\x7b'

/-- The fault can be seen in a text for which there is that much room. -/
def Fault.SeenIn (room : Nat) (s : List Char) : Fault → Prop
  | malformed => True
  | overlongInteger n => Digits.limit < n ∧ Spells s n
  | tooDeep => room < 3 * s.countP isBracket

theorem Fault.SeenIn.mono {fault : Fault} {room : Nat} {s t : List Char}
    (h : fault.SeenIn room s) (hs : s <:+ t) : fault.SeenIn room t := by
  cases fault with
  | malformed => trivial
  | overlongInteger n =>
    obtain ⟨hlimit, run, hrun, hchars⟩ := h
    exact ⟨hlimit, run, hrun.trans hs.isInfix, hchars⟩
  | tooDeep =>
    have hcount : s.countP isBracket ≤ t.countP isBracket := hs.sublist.countP_le
    exact Nat.lt_of_lt_of_le h (Nat.mul_le_mul_left 3 hcount)

variable {room : Nat} {α β : Type} {rest : α → List Char} {after : β → List Char} {s t : List Char}

def Ends (rest : α → List Char) (s : List Char) (found : Option α) : Prop :=
  ∀ a, found = some a → rest a <:+ s

theorem ends_none : Ends rest s none := nofun

theorem ends_some {a : α} (h : rest a <:+ s) : Ends rest s (some a) := by
  rintro _ ⟨⟩
  exact h

theorem Ends.mono {found : Option α} (h : Ends rest s found) (hs : s <:+ t) : Ends rest t found :=
  fun a ha => (h a ha).trans hs

theorem Ends.bind {found : Option α} {f : α → Option β} (h : Ends rest s found)
    (hf : ∀ a, Ends after (rest a) (f a)) : Ends after s (found >>= f) := by
  cases found with
  | none => exact ends_none
  | some a => exact (hf a).mono (h a rfl)

/-- The reading hands on an end of the text, or its fault can be seen in the text. -/
def Reads (room : Nat) (rest : α → List Char) (s : List Char) : Except Fault α → Prop
  | .ok a => rest a <:+ s
  | .error fault => fault.SeenIn room s

theorem reads_malformed : Reads room rest s (throw .malformed) :=
  trivial

theorem reads_pure {a : α} (h : rest a <:+ s) : Reads room rest s (pure a) :=
  h

theorem Reads.mono {x : Except Fault α} (h : Reads room rest s x) (hs : s <:+ t) :
    Reads room rest t x := by
  cases x with
  | ok a => exact h.trans hs
  | error fault => exact Fault.SeenIn.mono h hs

theorem Reads.bind {x : Except Fault α} {f : α → Except Fault β} (h : Reads room rest s x)
    (hf : ∀ a, Reads room after (rest a) (f a)) : Reads room after s (x >>= f) := by
  cases x with
  | ok a => exact (hf a).mono h
  | error fault => exact h

/-- A bracket in front of a text makes up for the calls that it takes. -/
theorem Fault.SeenIn.cons {fault : Fault} {c : Char} {left : Nat} (h : fault.SeenIn left s)
    (hc : isBracket c) (hroom : room ≤ left + 3) : fault.SeenIn room (c :: s) := by
  cases fault with
  | malformed => trivial
  | overlongInteger n =>
    obtain ⟨hlimit, run, hrun, hchars⟩ := h
    exact ⟨hlimit, run, hrun.trans (List.suffix_cons c s).isInfix, hchars⟩
  | tooDeep =>
    have hcount : (c :: s).countP isBracket = s.countP isBracket + 1 := List.countP_cons_of_pos hc
    simp only [SeenIn] at h ⊢
    omega

theorem reads_enter {f : Nat → Except Fault α} {c : Char} {calls : Nat} (hc : isBracket c)
    (hcalls : calls ≤ 3) (hf : ∀ left, Reads left rest s (f left)) :
    Reads room rest (c :: s) (enter calls room >>= f) := by
  unfold enter
  split
  · have hcount : (c :: s).countP isBracket = s.countP isBracket + 1 := List.countP_cons_of_pos hc
    change room < 3 * (c :: s).countP isBracket
    omega
  · have hread := hf (room - calls)
    change Reads room rest (c :: s) (f (room - calls))
    generalize f (room - calls) = found at hread
    cases found with
    | ok a => exact hread.trans (List.suffix_cons c s)
    | error fault => exact Fault.SeenIn.cons hread hc (by omega)

theorem reads_orMalformed (s : List Char) (found : Option α) :
    Reads room (fun _ => s) s (orMalformed found) := by
  cases found with
  | none => exact reads_malformed
  | some a => exact List.suffix_rfl

section Words

theorem skipBlank_suffix (s : List Char) : skipBlank s <:+ s :=
  List.dropWhile_suffix _

theorem skipBlankLines_suffix (s : List Char) : skipBlankLines s <:+ s :=
  List.dropWhile_suffix _

theorem reads_skipComment (s : List Char) : Reads room id s (skipComment s) := by
  unfold skipComment
  split
  · split
    · exact reads_malformed
    · exact (List.dropWhile_suffix _).trans (List.suffix_cons _ _)
  · exact List.suffix_rfl

theorem reads_skipFiller (fuel : Nat) (s : List Char) : Reads room id s (skipFiller fuel s) := by
  induction fuel generalizing s with
  | zero => exact List.suffix_rfl
  | succ fuel ih =>
    unfold skipFiller
    refine Reads.mono ?_ (skipBlankLines_suffix s)
    split
    · rename_i rest hblank
      rw [hblank]
      exact (reads_skipComment _).bind fun rest => ih rest
    · exact List.suffix_rfl

theorem reads_expect (c : Char) (s : List Char) : Reads room id s (expect c s) := by
  unfold expect
  split
  · split
    · exact List.suffix_cons _ _
    · exact reads_malformed
  · exact reads_malformed

theorem reads_hexNumber (s : List Char) (width : Nat) :
    Reads room Prod.snd s (hexNumber s width) := by
  unfold hexNumber
  split
  · split
    · exact List.drop_suffix width s
    · exact reads_malformed
  · exact reads_malformed

theorem reads_codePoint (s : List Char) (width : Nat) :
    Reads room Prod.snd s (codePoint s width) := by
  apply (reads_hexNumber s width).bind
  rintro ⟨n, rest⟩
  dsimp only
  split
  · exact List.suffix_rfl
  · exact reads_malformed

theorem reads_lineContinuation? (s : List Char) :
    Reads room (fun found => found.getD s) s (lineContinuation? s) := by
  unfold lineContinuation?
  split
  · rename_i c tail
    split
    · have hblank := skipBlank_suffix (c :: tail)
      split
      · rename_i rest hskip
        rw [hskip] at hblank
        exact ((skipBlankLines_suffix rest).trans (List.suffix_cons _ _)).trans hblank
      · exact List.nil_suffix
      · exact reads_malformed
    · exact List.suffix_rfl
  · exact List.suffix_rfl

theorem reads_escape (s : List Char) : Reads room Prod.snd s (escape s) := by
  unfold escape
  split
  · rename_i c rest
    have hrest : rest <:+ c :: rest := List.suffix_cons c rest
    iterate 6 (split; · exact hrest)
    split
    · exact (reads_codePoint rest 4).mono hrest
    · split
      · exact (reads_codePoint rest 8).mono hrest
      · exact reads_malformed
  · exact reads_malformed

theorem reads_basicText (fuel : Nat) (read s : List Char) :
    Reads room Prod.snd s (basicText fuel read s) := by
  induction fuel generalizing read s with
  | zero => exact reads_malformed
  | succ fuel ih =>
    unfold basicText
    split
    · exact reads_malformed
    · exact List.suffix_cons _ _
    · exact ((reads_escape _).bind fun _ => ih _ _).mono (List.suffix_cons _ _)
    · split
      · exact reads_malformed
      · exact (ih _ _).mono (List.suffix_cons _ _)

theorem reads_basicBlock (fuel : Nat) (read s : List Char) :
    Reads room Prod.snd s (basicBlock fuel read s) := by
  induction fuel generalizing read s with
  | zero => exact reads_malformed
  | succ fuel ih =>
    unfold basicBlock
    split
    · exact reads_malformed
    · exact List.suffix_append ['"', '"', '"'] _
    · refine Reads.mono ?_ (List.suffix_cons _ _)
      apply (reads_lineContinuation? _).bind
      intro found
      cases found with
      | some rest => exact ih _ rest
      | none => exact (reads_escape _).bind fun _ => ih _ _
    · split
      · exact reads_malformed
      · exact (ih _ _).mono (List.suffix_cons _ _)

theorem reads_literalText (s : List Char) : Reads room Prod.snd s (literalText s) := by
  unfold literalText
  dsimp only
  split
  · rename_i quote rest hrest
    split
    · exact reads_malformed
    · exact (List.suffix_cons quote rest).trans (hrest ▸ List.dropWhile_suffix _)
  · exact reads_malformed

theorem reads_literalBlock (read s : List Char) : Reads room Prod.snd s (literalBlock read s) := by
  fun_induction literalBlock read s with
  | case1 read rest => exact List.suffix_append ['\'', '\'', '\''] rest
  | case2 => exact reads_malformed
  | case3 read c rest _ _ ih => exact ih.mono (List.suffix_cons c rest)
  | case4 => exact reads_malformed

theorem dropFirstBreak_suffix (s : List Char) : dropFirstBreak s <:+ s := by
  unfold dropFirstBreak
  split
  · exact List.suffix_cons _ _
  · exact List.suffix_rfl

theorem reads_quotedText? {fuel : Nat} {reading : Except Fault (String × List Char)}
    (h : quotedText? fuel s = some reading) : Reads room Prod.snd s reading := by
  have hclose (quote : Char) (x : List Char × List Char) :
      Reads room Prod.snd x.2 (pure (closeBlock quote x.1 x.2)) := List.drop_suffix _ x.2
  unfold quotedText? at h
  split at h
  · cases h
    refine Reads.mono ((reads_basicBlock _ _ _).bind fun x => hclose '"' x) ?_
    exact (dropFirstBreak_suffix _).trans (List.suffix_append ['"', '"', '"'] _)
  · cases h
    refine Reads.mono ((reads_literalBlock _ _).bind fun x => hclose '\'' x) ?_
    exact (dropFirstBreak_suffix _).trans (List.suffix_append ['\'', '\'', '\''] _)
  · cases h
    exact (reads_basicText _ _ _).mono (List.suffix_cons _ _)
  · cases h
    exact (reads_literalText _).mono (List.suffix_cons _ _)
  · cases h

theorem reads_keyPart (fuel : Nat) (s : List Char) : Reads room Prod.snd s (keyPart fuel s) := by
  unfold keyPart
  split
  · exact (reads_basicText _ _ _).mono (List.suffix_cons _ _)
  · exact (reads_literalText _).mono (List.suffix_cons _ _)
  · split
    · exact reads_malformed
    · exact List.dropWhile_suffix _

theorem reads_key (fuel : Nat) (s : List Char) : Reads room Prod.snd s (key fuel s) := by
  induction fuel generalizing s with
  | zero => exact reads_malformed
  | succ fuel ih =>
    unfold key
    apply (reads_keyPart fuel s).bind
    rintro ⟨part, rest⟩
    refine Reads.mono ?_ (skipBlank_suffix rest)
    dsimp only
    split
    · rename_i rest hblank
      rw [hblank]
      refine Reads.mono ?_ ((skipBlank_suffix rest).trans (List.suffix_cons _ _))
      exact (ih (skipBlank rest)).bind fun _ => reads_pure List.suffix_rfl
    · exact List.suffix_rfl

end Words

section Numbers

def Writes (isDigit : Char → Bool) (digits rest s : List Char) : Prop :=
  ∃ run, run ++ rest = s ∧ (∀ c ∈ run, isDigit c ∨ c = '_') ∧ run.filter isDigit = digits

namespace Writes

variable {isDigit : Char → Bool} {digits rest : List Char}

theorem none_read (s : List Char) : Writes isDigit [] s s :=
  ⟨[], by simp⟩

theorem digit {c : Char} (hc : isDigit c = true) (h : Writes isDigit digits rest s) :
    Writes isDigit (c :: digits) rest (c :: s) := by
  obtain ⟨run, rfl, hchars, rfl⟩ := h
  exact ⟨c :: run, rfl, List.forall_mem_cons.mpr ⟨.inl hc, hchars⟩, List.filter_cons_of_pos hc⟩

theorem underscore (hunder : isDigit '_' = false) (h : Writes isDigit digits rest s) :
    Writes isDigit digits rest ('_' :: s) := by
  obtain ⟨run, rfl, hchars, rfl⟩ := h
  refine ⟨'_' :: run, rfl, List.forall_mem_cons.mpr ⟨.inr rfl, hchars⟩, ?_⟩
  exact List.filter_cons_of_neg (by simp [hunder])

theorem suffix (h : Writes isDigit digits rest s) : rest <:+ s := by
  obtain ⟨run, rfl, -⟩ := h
  exact List.suffix_append run rest

theorem spells (h : Writes Char.isDigit digits rest s) : Spells s digits.length := by
  obtain ⟨run, rfl, hchars, rfl⟩ := h
  exact ⟨run, (List.prefix_append run rest).isInfix, hchars, rfl⟩

end Writes

variable {isDigit : Char → Bool} {digits rest' : List Char}

theorem writes_moreDigits (hunder : isDigit '_' = false) (s : List Char) :
    Writes isDigit (moreDigits isDigit s).1 (moreDigits isDigit s).2 s := by
  fun_induction moreDigits isDigit s with
  | case1 => exact .none_read []
  | case2 c hc => exact (Writes.none_read []).digit hc
  | case3 c => exact .none_read [c]
  | case4 c d rest hc digits rest' hread ih =>
    rw [hread] at ih
    exact ih.digit hc
  | case5 c d rest _ hd digits rest' hread ih =>
    rw [Bool.and_eq_true, decide_eq_true_iff] at hd
    obtain ⟨rfl, hd⟩ := hd
    rw [hread] at ih
    exact (ih.digit hd).underscore hunder
  | case6 c d rest => exact .none_read (c :: d :: rest)

theorem writes_of_someDigits? (hunder : isDigit '_' = false)
    (h : someDigits? isDigit s = some (digits, rest')) : Writes isDigit digits rest' s := by
  unfold someDigits? at h
  split at h
  · split at h
    · cases h
      exact (writes_moreDigits hunder _).digit ‹_›
    · cases h
  · cases h

theorem ends_someDigits? (hunder : isDigit '_' = false) (s : List Char) :
    Ends Prod.snd s (someDigits? isDigit s) :=
  fun _ h => (writes_of_someDigits? hunder h).suffix

theorem ends_basedInteger? (s : List Char) : Ends Prod.snd s (basedInteger? s) := by
  unfold basedInteger?
  split
  · rename_i mark rest
    have hrest : rest <:+ '0' :: mark :: rest := List.suffix_append ['0', mark] rest
    have hbase (base : Nat) : Ends Prod.snd ('0' :: mark :: rest) (do
        let found ← someDigits? (fun c => (Json.hexValue? c).any (· < base)) rest
        let n := found.1.foldl (fun n c => base * n + (Json.hexValue? c).getD 0) 0
        pure (Value.int n, found.2)) := by
      refine Ends.mono (Ends.bind (ends_someDigits? ?_ rest) fun _ => ?_) hrest
      · rfl
      · exact ends_some List.suffix_rfl
    iterate 3 (split; · exact hbase _)
    exact ends_none
  · exact ends_none

theorem sign?_suffix (s : List Char) : (sign? s).2 <:+ s := by
  unfold sign?
  split
  · exact List.suffix_cons _ _
  · exact List.suffix_cons _ _
  · exact List.suffix_rfl

theorem writes_of_wholePart? (h : wholePart? s = some (digits, rest')) :
    Writes Char.isDigit digits rest' s := by
  unfold wholePart? at h
  split at h
  · cases h
    exact (Writes.none_read _).digit rfl
  · exact writes_of_someDigits? rfl h

theorem fractionPart_suffix (s : List Char) : (fractionPart s).2 <:+ s := by
  unfold fractionPart
  split
  · rename_i rest
    cases hdigits : someDigits? Char.isDigit rest with
    | none => exact List.suffix_rfl
    | some found =>
      exact (ends_someDigits? rfl rest found hdigits).trans (List.suffix_cons '.' rest)
  · exact List.suffix_rfl

theorem ends_exponentPart? (s : List Char) : Ends Prod.snd s (exponentPart? s) := by
  unfold exponentPart?
  split
  · rename_i c rest
    split
    · refine Ends.mono ?_ ((sign?_suffix rest).trans (List.suffix_cons c rest))
      exact (ends_someDigits? rfl _).bind fun _ => ends_some List.suffix_rfl
    · exact ends_none
  · exact ends_none

theorem reads_decimal? {reading : Except Fault (Value × List Char)}
    (h : decimal? s = some reading) : Reads room Prod.snd s reading := by
  have hsign := sign?_suffix s
  unfold decimal? at h
  split at h
  rename_i negative unsigned hs
  rw [hs] at hsign
  obtain ⟨⟨whole, afterWhole⟩, hwhole, h⟩ := Option.bind_eq_some_iff.mp h
  have hwrites := writes_of_wholePart? hwhole
  have hsuffix : (fractionPart afterWhole).2 <:+ s :=
    ((fractionPart_suffix afterWhole).trans hwrites.suffix).trans hsign
  dsimp only at h
  split at h
  · split at h
    · rename_i hlimit
      cases h
      have hseen : (Fault.overlongInteger whole.length).SeenIn room unsigned :=
        ⟨hlimit, hwrites.spells⟩
      exact hseen.mono hsign
    · cases h
      exact hsuffix
  · cases h
    cases hexponent : exponentPart? (fractionPart afterWhole).2 with
    | none => exact hsuffix
    | some found => exact (ends_exponentPart? _ found hexponent).trans hsuffix

theorem afterWord?_suffix {word : String} {rest : List Char}
    (h : Json.afterWord? word s = some rest) : rest <:+ s := by
  unfold Json.afterWord? at h
  split at h
  · cases h
    exact List.drop_suffix _ s
  · cases h

theorem ends_special? (s : List Char) : Ends Prod.snd s (special? s) := by
  unfold special?
  dsimp only
  split
  · rename_i hword
    exact ends_some ((afterWord?_suffix hword).trans (sign?_suffix s))
  · rename_i hword
    exact ends_some ((afterWord?_suffix hword).trans (sign?_suffix s))
  · exact ends_none

end Numbers

section Moments

theorem ends_twoDigits? (low high : Nat) (s : List Char) :
    Ends Prod.snd s (twoDigits? low high s) := by
  unfold twoDigits?
  split
  · split
    · dsimp only
      split
      · exact ends_some (List.suffix_append [_, _] _)
      · exact ends_none
    · exact ends_none
  · exact ends_none

theorem ends_char? (c : Char) (s : List Char) : Ends id s (char? c s) := by
  unfold char?
  split
  · split
    · exact ends_some (List.suffix_cons _ _)
    · exact ends_none
  · exact ends_none

theorem micros_suffix (s : List Char) : (micros s).2 <:+ s := by
  unfold micros
  split
  · split
    · exact List.suffix_rfl
    · exact (List.dropWhile_suffix _).trans (List.suffix_cons _ _)
  · exact List.suffix_rfl

theorem ends_clockTime? (s : List Char) : Ends Prod.snd s (clockTime? s) := by
  refine (ends_twoDigits? 0 23 s).bind fun (_, s) => ?_
  refine (ends_char? ':' s).bind fun s => ?_
  refine (ends_twoDigits? 0 59 s).bind fun (_, s) => ?_
  refine (ends_char? ':' s).bind fun s => ?_
  refine (ends_twoDigits? 0 59 s).bind fun (_, s) => ?_
  exact ends_some (micros_suffix s)

theorem ends_date? (s : List Char) : Ends Prod.snd s (date? s) := by
  refine (ends_twoDigits? 0 99 s).bind fun (_, s) => ?_
  refine (ends_twoDigits? 0 99 s).bind fun (_, s) => ?_
  refine (ends_char? '-' s).bind fun s => ?_
  refine (ends_twoDigits? 1 12 s).bind fun (_, s) => ?_
  refine (ends_char? '-' s).bind fun s => ?_
  refine (ends_twoDigits? 1 31 s).bind fun (_, s) => ?_
  exact ends_some List.suffix_rfl

theorem ends_offset? (s : List Char) : Ends Prod.snd s (offset? s) := by
  unfold offset?
  split
  · rename_i c s
    split
    · exact ends_some (List.suffix_cons c s)
    · split
      · refine Ends.mono ?_ (List.suffix_cons c s)
        refine (ends_twoDigits? 0 23 s).bind fun (_, s) => ?_
        refine (ends_char? ':' s).bind fun s => ?_
        refine (ends_twoDigits? 0 59 s).bind fun (_, s) => ?_
        exact ends_some List.suffix_rfl
      · exact ends_none
  · exact ends_none

theorem ends_timeAfterDate? (s : List Char) : Ends Prod.snd s (timeAfterDate? s) := by
  unfold timeAfterDate?
  split
  · split
    · exact (ends_clockTime? _).mono (List.suffix_cons _ _)
    · exact ends_none
  · exact ends_none

theorem reads_moment? {reading : Except Fault (Value × List Char)}
    (h : moment? s = some reading) : Reads room Prod.snd s reading := by
  unfold moment? at h
  split at h
  · rename_i date rest hdate
    have hrest := ends_date? s _ hdate
    split at h
    · split at h
      · rename_i time rest htime
        have hafter := (ends_timeAfterDate? _ _ htime).trans hrest
        split at h
        · rename_i hoffset
          cases h
          exact (ends_offset? _ _ hoffset).trans hafter
        · cases h
          exact hafter
      · cases h
        exact hrest
    · cases h
      exact reads_malformed
  · obtain ⟨⟨time, rest⟩, htime, rfl⟩ := Option.map_eq_some_iff.mp h
    exact ends_clockTime? s _ htime

end Moments

section Values

theorem reads_simpleValue (fuel : Nat) (s : List Char) :
    Reads room Prod.snd s (simpleValue fuel s) := by
  unfold simpleValue
  split
  · rename_i hquoted
    exact (reads_quotedText? hquoted).bind fun _ => reads_pure List.suffix_rfl
  · split
    · rename_i hword
      exact afterWord?_suffix hword
    · rename_i hword
      exact afterWord?_suffix hword
    · split
      · rename_i hmoment
        exact reads_moment? hmoment
      · split
        · rename_i hinteger
          exact ends_basedInteger? s _ hinteger
        · split
          · rename_i hdecimal
            exact reads_decimal? hdecimal
          · cases hspecial : special? s with
            | none => exact reads_malformed
            | some found => exact ends_special? s found hspecial

structure ReadsValues (fuel : Nat) : Prop where
  value : ∀ room s, Reads room Prod.snd s (readValue room fuel s)
  items : ∀ room items s, Reads room Prod.snd s (readItems room fuel items s)
  inline : ∀ room closed entries s,
    Reads room Prod.snd s (readInline room fuel closed entries s)

theorem readsValues_zero : ReadsValues 0 where
  value _ _ := by
    unfold readValue
    exact reads_malformed
  items _ _ _ := by
    unfold readItems
    exact reads_malformed
  inline _ _ _ _ := by
    unfold readInline
    exact reads_malformed

namespace ReadsValues

variable {fuel : Nat} (h : ReadsValues fuel)

include h

theorem value_succ (room : Nat) (s : List Char) :
    Reads room Prod.snd s (readValue room (fuel + 1) s) := by
  unfold readValue
  split
  · rename_i rest
    refine reads_enter rfl (by decide) fun room => ?_
    refine (reads_skipFiller fuel rest).bind fun rest => ?_
    exact (h.items room [] rest).bind fun _ => reads_pure List.suffix_rfl
  · rename_i rest
    refine reads_enter rfl (by decide) fun room => ?_
    refine Reads.mono ?_ (skipBlank_suffix rest)
    split
    · rename_i rest hblank
      rw [hblank]
      exact List.suffix_cons _ rest
    · exact (h.inline room [] [] _).bind fun _ => reads_pure List.suffix_rfl
  · exact reads_simpleValue fuel s

theorem items_succ (room : Nat) (items : List Value) (s : List Char) :
    Reads room Prod.snd s (readItems room (fuel + 1) items s) := by
  unfold readItems
  split
  · exact List.suffix_cons _ _
  · refine (h.value room s).bind fun (item, rest) => ?_
    refine (reads_skipFiller fuel rest).bind fun rest => ?_
    dsimp only [id]
    split
    · exact List.suffix_cons _ _
    · rename_i rest
      refine Reads.mono ?_ (List.suffix_cons ',' rest)
      exact (reads_skipFiller fuel rest).bind fun rest => h.items room _ rest
    · exact reads_malformed

theorem inline_succ (room : Nat) (closed : List (List String)) (entries : Entries)
    (s : List Char) : Reads room Prod.snd s (readInline room (fuel + 1) closed entries s) := by
  unfold readInline
  refine (reads_key fuel s).bind fun (parts, rest) => ?_
  refine (reads_expect '=' rest).bind fun rest => ?_
  refine Reads.mono ?_ (skipBlank_suffix rest)
  refine (h.value room (skipBlank rest)).bind fun (value, rest) => ?_
  dsimp only
  split
  · exact reads_malformed
  · refine (reads_orMalformed rest _).bind fun entries => ?_
    refine Reads.mono ?_ (skipBlank_suffix rest)
    split
    · rename_i rest hblank
      rw [hblank]
      exact List.suffix_cons _ rest
    · rename_i rest hblank
      rw [hblank]
      refine Reads.mono (h.inline room _ _ _) ?_
      exact (skipBlank_suffix rest).trans (List.suffix_cons ',' rest)
    · exact reads_malformed

end ReadsValues

theorem readsValues (fuel : Nat) : ReadsValues fuel := by
  induction fuel with
  | zero => exact readsValues_zero
  | succ fuel ih => exact ⟨ih.value_succ, ih.items_succ, ih.inline_succ⟩

end Values

section Documents

variable (s : List Char) (d : Document)

theorem reads_openTable (path : List String) : Reads room (fun _ => s) s (d.openTable path) := by
  unfold Document.openTable
  split
  · exact reads_malformed
  · exact (reads_orMalformed s _).bind fun _ => reads_pure List.suffix_rfl

theorem reads_openItem (path : List String) : Reads room (fun _ => s) s (d.openItem path) := by
  unfold Document.openItem
  dsimp only
  split
  · exact reads_malformed
  · exact (reads_orMalformed s _).bind fun _ => reads_pure List.suffix_rfl

theorem reads_addEntry (parts : List String) (value : Value) :
    Reads room (fun _ => s) s (d.addEntry parts value) := by
  unfold Document.addEntry
  dsimp only
  split
  · exact reads_malformed
  · split
    · exact reads_malformed
    · exact (reads_orMalformed s _).bind fun _ => reads_pure List.suffix_rfl

theorem reads_statement (fuel : Nat) : Reads room Prod.snd s (statement room fuel d s) := by
  unfold statement
  split
  · rename_i rest
    refine Reads.mono ?_ ((skipBlank_suffix rest).trans (List.suffix_append ['[', '['] rest))
    refine (reads_key fuel (skipBlank rest)).bind fun (path, rest) => ?_
    refine (reads_openItem rest d.settle path).bind fun d => ?_
    refine (reads_expect ']' rest).bind fun rest => ?_
    exact (reads_expect ']' rest).bind fun _ => reads_pure List.suffix_rfl
  · rename_i rest _
    refine Reads.mono ?_ ((skipBlank_suffix rest).trans (List.suffix_cons '[' rest))
    refine (reads_key fuel (skipBlank rest)).bind fun (path, rest) => ?_
    refine (reads_openTable rest d.settle path).bind fun d => ?_
    exact (reads_expect ']' rest).bind fun _ => reads_pure List.suffix_rfl
  · exact List.suffix_rfl
  · refine (reads_key fuel s).bind fun (parts, rest) => ?_
    refine (reads_expect '=' rest).bind fun rest => ?_
    refine Reads.mono ?_ (skipBlank_suffix rest)
    refine ((readsValues fuel).value room (skipBlank rest)).bind fun (value, rest) => ?_
    exact (reads_addEntry rest d parts value).bind fun _ => reads_pure List.suffix_rfl

theorem reads_statements (fuel : Nat) : Reads room (fun _ => []) s (statements room fuel d s) := by
  induction fuel generalizing d s with
  | zero => exact List.nil_suffix
  | succ fuel ih =>
    unfold statements
    refine Reads.mono ?_ (skipBlank_suffix s)
    split
    · exact List.nil_suffix
    · rename_i rest hblank
      rw [hblank]
      exact (ih rest d).mono (List.suffix_cons _ rest)
    · refine (reads_statement _ d fuel).bind fun (d, rest) => ?_
      refine Reads.mono ?_ (skipBlank_suffix rest)
      refine (reads_skipComment (skipBlank rest)).bind fun rest => ?_
      dsimp only [id]
      split
      · exact List.nil_suffix
      · rename_i rest
        exact (ih rest d).mono (List.suffix_cons _ rest)
      · exact reads_malformed

theorem reads_read (room : Nat) (text : List Char) :
    Reads room (fun _ => []) text (read room text) :=
  (reads_statements text {} _).bind fun _ => List.nil_suffix

end Documents

/-- An integer that is too long to read stands in the text, with all its digits in a row. -/
theorem spells_of_read {text : List Char} {n : Nat}
    (h : read room text = .error (.overlongInteger n)) : Digits.limit < n ∧ Spells text n := by
  have hread := reads_read room text
  rwa [h] at hread

/-- A text that is too deep to read has brackets for it. -/
theorem brackets_of_read {text : List Char} (h : read room text = .error .tooDeep) :
    room < 3 * text.countP isBracket := by
  have hread := reads_read room text
  rwa [h] at hread

section Numerals

variable {digits : List Char} (hdigits : ∀ c ∈ digits, c.isDigit)

include hdigits

theorem moreDigits_of_digits : moreDigits Char.isDigit digits = (digits, []) := by
  fun_induction moreDigits Char.isDigit digits with
  | case1 => rfl
  | case2 => rfl
  | case3 c hc => exact absurd (hdigits c (List.mem_singleton_self c)) hc
  | case4 c d rest _ read rest' hread ih =>
    rw [List.forall_mem_cons] at hdigits
    rw [hread] at ih
    cases ih hdigits.2
    rfl
  | case5 c d rest hc => exact absurd (hdigits c List.mem_cons_self) hc
  | case6 c d rest hc => exact absurd (hdigits c List.mem_cons_self) hc

theorem char?_of_digits {c : Char} (hc : c.isDigit = false) : char? c digits = none := by
  unfold char?
  split
  · rename_i d rest
    have hd : d ≠ c := by
      rintro rfl
      have := hdigits d List.mem_cons_self
      simp_all
    rw [if_neg hd]
  · rfl

theorem clockTime?_of_digits : clockTime? digits = none := by
  unfold clockTime?
  cases htwo : twoDigits? 0 23 digits with
  | none => rfl
  | some found =>
    have hrest := (ends_twoDigits? 0 23 digits found htwo).subset
    have hcolon := char?_of_digits (c := ':') (fun c hc => hdigits c (hrest hc)) rfl
    simp [hcolon]

theorem date?_of_digits : date? digits = none := by
  unfold date?
  cases htwo : twoDigits? 0 99 digits with
  | none => rfl
  | some century =>
    have hcentury := ends_twoDigits? 0 99 digits century htwo
    cases hyear : twoDigits? 0 99 century.2 with
    | none => simp [hyear]
    | some year =>
      have hrest := ((ends_twoDigits? 0 99 _ year hyear).trans hcentury).subset
      have hdash := char?_of_digits (c := '-') (fun c hc => hdigits c (hrest hc)) rfl
      simp [hyear, hdash]

theorem moment?_of_digits : moment? digits = none := by
  simp only [moment?, date?_of_digits hdigits, clockTime?_of_digits hdigits, Option.map_none]

end Numerals

structure IsNumeral (digits : List Char) : Prop where
  ne_nil : digits ≠ []
  digit : ∀ c ∈ digits, c.isDigit
  head : digits.head? ≠ some '0'

namespace IsNumeral

variable {digits : List Char} (h : IsNumeral digits)

include h

theorem head_ne {c : Char} (hc : c.isDigit = false) (rest : List Char) : digits ≠ c :: rest := by
  rintro rfl
  have hdigit := h.digit c List.mem_cons_self
  rw [hc] at hdigit
  cases hdigit

theorem sign?_eq : sign? digits = (false, digits) := by
  unfold sign?
  split
  · exact absurd rfl (h.head_ne rfl _)
  · exact absurd rfl (h.head_ne rfl _)
  · rfl

theorem quotedText?_eq (fuel : Nat) : quotedText? fuel digits = none := by
  unfold quotedText?
  split
  · exact absurd rfl (h.head_ne rfl _)
  · exact absurd rfl (h.head_ne rfl _)
  · exact absurd rfl (h.head_ne rfl _)
  · exact absurd rfl (h.head_ne rfl _)
  · rfl

theorem afterWord?_eq (word : String) {c : Char} {rest : List Char}
    (hword : word.toList = c :: rest) (hc : c.isDigit = false) :
    Json.afterWord? word digits = none := by
  unfold Json.afterWord?
  rw [hword]
  split
  · rename_i hstarts
    obtain ⟨tail, htail⟩ := List.isPrefixOf_iff_prefix.mp hstarts
    exact absurd htail.symm (h.head_ne hc _)
  · rfl

theorem basedInteger?_eq : basedInteger? digits = none := by
  unfold basedInteger?
  split
  · exact absurd rfl h.head
  · rfl

theorem wholePart?_eq : wholePart? digits = some (digits, []) := by
  obtain ⟨c, rest, rfl⟩ := List.exists_cons_of_ne_nil h.ne_nil
  have hdigit := List.forall_mem_cons.mp h.digit
  unfold wholePart?
  split
  · rename_i hzero
    cases hzero
    exact absurd rfl h.head
  · simp only [someDigits?, hdigit.1, moreDigits_of_digits hdigit.2, if_true]

theorem decimal?_eq : decimal? digits = some (if Digits.limit < digits.length
    then .error (.overlongInteger digits.length) else .ok (.int (Digits.value digits), [])) := by
  simp only [decimal?, h.sign?_eq, h.wholePart?_eq, Option.bind_eq_bind, Option.bind_some,
    fractionPart, exponentPart?, Bool.false_eq_true, if_false]
  split <;> rfl

theorem simpleValue_eq (fuel : Nat) : simpleValue fuel digits = if Digits.limit < digits.length
    then .error (.overlongInteger digits.length) else .ok (.int (Digits.value digits), []) := by
  simp only [simpleValue, h.quotedText?_eq, h.afterWord?_eq "true" rfl rfl,
    h.afterWord?_eq "false" rfl rfl, moment?_of_digits h.digit, h.basedInteger?_eq, h.decimal?_eq]

theorem readValue_eq (room fuel : Nat) : readValue room (fuel + 1) digits =
    if Digits.limit < digits.length then .error (.overlongInteger digits.length)
    else .ok (.int (Digits.value digits), []) := by
  unfold readValue
  split
  · exact absurd rfl (h.head_ne rfl _)
  · exact absurd rfl (h.head_ne rfl _)
  · exact h.simpleValue_eq fuel

theorem skipBlank_eq : skipBlank digits = digits := by
  obtain ⟨c, rest, rfl⟩ := List.exists_cons_of_ne_nil h.ne_nil
  have hblank : isBlank c = false := by
    have hspace : c ≠ ' ' := fun hc => h.head_ne rfl rest (congrArg (· :: rest) hc)
    have htab : c ≠ '\t' := fun hc => h.head_ne rfl rest (congrArg (· :: rest) hc)
    simp [isBlank, hspace, htab]
  exact List.dropWhile_cons_of_neg (by simp [hblank])

end IsNumeral

structure IsBare (part : List Char) : Prop where
  ne_nil : part ≠ []
  bare : ∀ c ∈ part, isBareKey c

namespace IsBare

variable {part : List Char} (h : IsBare part)

include h

theorem append_ne {c : Char} (hc : isBareKey c = false) (s rest : List Char) :
    part ++ s ≠ c :: rest := by
  obtain ⟨first, others, rfl⟩ := List.exists_cons_of_ne_nil h.ne_nil
  intro heq
  have hbare := h.bare first List.mem_cons_self
  rw [(List.cons.inj heq).1, hc] at hbare
  cases hbare

theorem skipBlank_eq (s : List Char) : skipBlank (part ++ s) = part ++ s := by
  obtain ⟨c, rest, rfl⟩ := List.exists_cons_of_ne_nil h.ne_nil
  have hspace : c ≠ ' ' := fun hc => h.append_ne rfl s (rest ++ s) (congrArg (· :: rest ++ s) hc)
  have htab : c ≠ '\t' := fun hc => h.append_ne rfl s (rest ++ s) (congrArg (· :: rest ++ s) hc)
  exact List.dropWhile_cons_of_neg (by simp [isBlank, hspace, htab])

theorem key_eq (fuel : Nat) (s : List Char) :
    key (fuel + 1) (part ++ '=' :: s) = .ok ([String.ofList part], '=' :: s) := by
  have hpart : keyPart fuel (part ++ '=' :: s) = .ok (String.ofList part, '=' :: s) := by
    unfold keyPart
    split
    · rename_i heq
      exact absurd heq (h.append_ne rfl _ _)
    · rename_i heq
      exact absurd heq (h.append_ne rfl _ _)
    · rw [List.takeWhile_append_of_pos h.bare, List.dropWhile_append_of_pos h.bare,
        List.takeWhile_cons_of_neg (by decide), List.dropWhile_cons_of_neg (by decide),
        List.append_nil]
      split
      · exact absurd rfl h.ne_nil
      · rfl
  rw [key, hpart]
  rfl

theorem statement_eq (room fuel : Nat) (d : Document) (s : List Char) :
    statement room (fuel + 1) d (part ++ '=' :: s) = (do
      let (value, rest) ← readValue room (fuel + 1) (skipBlank s)
      let d ← d.addEntry [String.ofList part] value
      pure (d, rest)) := by
  unfold statement
  split
  · rename_i heq
    exact absurd heq (h.append_ne rfl _ _)
  · rename_i heq
    exact absurd heq (h.append_ne rfl _ _)
  · rename_i heq
    exact absurd heq (h.append_ne rfl _ _)
  · rw [h.key_eq]
    rfl

theorem read_eq (value : Except Fault Value) (hs : skipBlank s = s)
    (hvalue : ∀ fuel, 2 * s.length ≤ fuel → readValue room (fuel + 1) s = value.map (·, [])) :
    read room (part ++ '=' :: s) = value.map fun v => [(String.ofList part, v)] := by
  have hfuel : 2 * (part ++ '=' :: s).length + 2 = 2 * part.length + 2 * s.length + 2 + 1 + 1 := by
    rw [List.length_append, List.length_cons]
    omega
  rw [read, hfuel, statements, h.skipBlank_eq]
  split
  · rename_i heq
    exact absurd (List.append_eq_nil_iff.mp heq).1 h.ne_nil
  · rename_i heq
    exact absurd heq (h.append_ne rfl _ _)
  · rw [h.statement_eq, hs, hvalue _ (by omega)]
    cases value <;> rfl

end IsBare

theorem IsBare.read_numeral {part : List Char} (h : IsBare part) (room : Nat) {digits : List Char}
    (hdigits : IsNumeral digits) :
    read room (part ++ '=' :: digits) = if Digits.limit < digits.length
      then .error (.overlongInteger digits.length)
      else .ok [(String.ofList part, .int (Digits.value digits))] := by
  by_cases hlimit : Digits.limit < digits.length
  · rw [if_pos hlimit]
    apply h.read_eq (.error (.overlongInteger digits.length)) hdigits.skipBlank_eq
    intro fuel _
    rw [hdigits.readValue_eq, if_pos hlimit]
    rfl
  · rw [if_neg hlimit]
    apply h.read_eq (.ok (.int (Digits.value digits))) hdigits.skipBlank_eq
    intro fuel _
    rw [hdigits.readValue_eq, if_neg hlimit]
    rfl

/-! Arrays in one another. -/

def nested : Nat → Value
  | 0 => .list []
  | n + 1 => .list [nested n]

def nestedText (n : Nat) : List Char :=
  List.replicate (n + 1) '[' ++ List.replicate (n + 1) ']'

theorem skipFiller_of_ne {c : Char} (hblank : isBlank c = false) (hbreak : c ≠ '\n')
    (hcomment : c ≠ '#') (fuel : Nat) (s : List Char) :
    skipFiller fuel (c :: s) = .ok (c :: s) := by
  cases fuel with
  | zero => rfl
  | succ fuel =>
    have hskip : skipBlankLines (c :: s) = c :: s :=
      List.dropWhile_cons_of_neg (by simp [hblank, hbreak])
    rw [skipFiller, hskip]
    split
    · rename_i heq
      exact absurd (List.cons.inj heq).1 hcomment
    · rfl

theorem readValue_array (room fuel : Nat) (s : List Char) :
    readValue room (fuel + 1) ('[' :: s) = if room < 2 then .error .tooDeep else (do
      let rest ← skipFiller fuel s
      let (items, rest) ← readItems (room - 2) fuel [] rest
      pure (.list items, rest)) := by
  rw [readValue, enter]
  split <;> rfl

theorem readItems_of_readValue {room fuel : Nat} {s rest : List Char} {value : Except Fault Value}
    (hs : ∀ rest, s ≠ ']' :: rest)
    (h : readValue room fuel s = value.map (·, ']' :: rest)) :
    readItems room (fuel + 1) [] s = value.map fun v => ([v], rest) := by
  rw [readItems]
  · rw [h]
    cases value with
    | error fault => rfl
    | ok v =>
      change skipFiller fuel (']' :: rest) >>= _ = _
      rw [skipFiller_of_ne rfl (by decide) (by decide)]
      rfl
  · exact hs

/-- Arrays in one another are read as far as there is room for two calls for each. -/
theorem readValue_nested (n room : Nat) {fuel : Nat} (hfuel : 2 * n + 1 ≤ fuel) (rest : List Char) :
    readValue room (fuel + 1) (List.replicate (n + 1) '[' ++ (List.replicate (n + 1) ']' ++ rest)) =
      (if room < 2 * (n + 1) then Except.error Fault.tooDeep
        else .ok (nested n)).map (·, rest) := by
  induction n generalizing room fuel rest with
  | zero =>
    obtain ⟨fuel, rfl⟩ := Nat.exists_eq_add_of_le' hfuel
    rw [List.replicate_one, List.replicate_one, List.singleton_append, List.singleton_append,
      readValue_array, skipFiller_of_ne rfl (by decide) (by decide)]
    split <;> rfl
  | succ n ih =>
    obtain ⟨fuel, rfl⟩ : ∃ k, fuel = k + 1 + 1 := ⟨fuel - 2, by omega⟩
    have hclosed : List.replicate (n + 1 + 1) ']' ++ rest =
        List.replicate (n + 1) ']' ++ ']' :: rest := by
      rw [List.replicate_succ', List.append_assoc, List.singleton_append]
    have hopen (tail : List Char) : List.replicate (n + 1) '[' ++ tail =
        '[' :: (List.replicate n '[' ++ tail) := by
      rw [List.replicate_succ, List.cons_append]
    have hitem := ih (room - 2) (by omega : 2 * n + 1 ≤ fuel) (']' :: rest)
    have hitems := readItems_of_readValue (by simp [hopen]) hitem
    rw [hclosed, List.replicate_succ, List.cons_append, readValue_array, hopen,
      skipFiller_of_ne rfl (by decide) (by decide), ← hopen]
    change (if room < 2 then _ else readItems (room - 2) (fuel + 1 + 1) [] _ >>= _) = _
    rw [hitems]
    by_cases hroom : room < 2
    · rw [if_pos hroom, if_pos (by omega)]
      rfl
    · rw [if_neg hroom]
      by_cases hdeep : room < 2 * (n + 1 + 1)
      · rw [if_pos hdeep, if_pos (by omega)]
        rfl
      · rw [if_neg hdeep, if_neg (by omega)]
        rfl

theorem IsBare.read_nested {part : List Char} (h : IsBare part) (room n : Nat) :
    read room (part ++ '=' :: nestedText n) = if room < 2 * (n + 1) then .error .tooDeep
      else .ok [(String.ofList part, nested n)] := by
  have hblank : skipBlank (nestedText n) = nestedText n := by
    rw [nestedText, List.replicate_succ, List.cons_append]
    exact List.dropWhile_cons_of_neg (by decide)
  rw [h.read_eq (if room < 2 * (n + 1) then .error .tooDeep else .ok (nested n)) hblank]
  · split <;> rfl
  · intro fuel hfuel
    have hlength : (nestedText n).length = 2 * (n + 1) := by
      simp [nestedText]
      omega
    have hread := readValue_nested n room (by omega : 2 * n + 1 ≤ fuel) []
    rwa [List.append_nil] at hread

end CopyLint.Toml
