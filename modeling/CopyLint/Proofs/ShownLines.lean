import CopyLint.Proofs.JsonText
import CopyLint.Value

/-! Where lines break in what messages show. A text that is quoted, a number, a date and any data
made of these stand on one line, whatever characters the texts in it have. -/
namespace CopyLint

namespace Text

def Breaks (s : String) : Prop :=
  '\n' ∈ s.toList

instance : DecidablePred Breaks :=
  fun s => inferInstanceAs (Decidable ('\n' ∈ s.toList))

theorem breaks_append {a b : String} : Breaks (a ++ b) ↔ Breaks a ∨ Breaks b := by
  simp [Breaks]

theorem breaks_toString {s : String} : Breaks (toString s) ↔ Breaks s :=
  Iff.rfl

theorem breaks_ofList {cs : List Char} : Breaks (String.ofList cs) ↔ '\n' ∈ cs := by
  simp [Breaks]

theorem breaks_intercalate {sep : String} (hsep : ¬Breaks sep) {texts : List String} :
    Breaks (sep.intercalate texts) ↔ ∃ text ∈ texts, Breaks text := by
  match texts with
  | [] => simp [Breaks]
  | [text] => simp
  | first :: second :: rest =>
    have hjoin : sep.intercalate (first :: second :: rest) =
        first ++ sep ++ sep.intercalate (second :: rest) := by
      simp
    rw [hjoin, breaks_append, breaks_append, breaks_intercalate hsep, or_iff_left hsep]
    simp

theorem not_mem_toDigits (n : Nat) : '\n' ∉ Nat.toDigits 10 n :=
  fun h => absurd (Json.isDigit_toDigits n '\n' h) (by decide)

theorem not_breaks_toString_nat (n : Nat) : ¬Breaks (toString n) := by
  have hdigits : (toString n).toList = Nat.toDigits 10 n := String.toList_ofList
  rw [Breaks, hdigits]
  exact not_mem_toDigits n

theorem not_breaks_toString (n : Int) : ¬Breaks (toString n) := by
  rw [Breaks, Json.toList_toString]
  split <;> simp [not_mem_toDigits]

theorem not_mem_hexDigits (width n : Nat) : '\n' ∉ hexDigits width n := by
  have hdigit : ∀ d < 16, Nat.digitChar d ≠ '\n' := by decide
  intro h
  obtain ⟨i, -, hi⟩ := List.mem_map.mp h
  exact hdigit _ (Nat.mod_lt _ (by decide)) hi

theorem not_mem_escaped {quote : Char} (hquote : quote ≠ '\n') (c : Char) :
    '\n' ∉ escaped quote c := by
  unfold escaped
  split
  · rename_i h
    have hc : c ≠ '\n' := by
      rintro rfl
      simp [Ne.symm hquote] at h
    simp [Ne.symm hc]
  · split
    · decide
    · rename_i hbreak
      repeat' split
      all_goals simp [not_mem_hexDigits, Ne.symm hbreak]

theorem not_breaks_quoted (s : String) : ¬Breaks (quoted s) := by
  have hquote : quoteFor s.toList ≠ '\n' := by
    unfold quoteFor
    split <;> decide
  rw [quoted, breaks_ofList]
  simp only [List.cons_append, List.mem_cons, List.mem_append, List.mem_flatMap,
    List.not_mem_nil, or_false, not_or, not_exists, not_and]
  exact ⟨Ne.symm hquote, fun c _ => not_mem_escaped hquote c, Ne.symm hquote⟩

end Text

open Text

namespace Moment

theorem not_breaks_padded (width n : Nat) : ¬Breaks (padded width n) := by
  rw [padded, breaks_ofList]
  simp [not_mem_toDigits, List.mem_replicate]

theorem not_breaks_date_iso (d : Date) : ¬Breaks d.iso := by
  have hdash : ¬Breaks "-" := by decide
  simp [Date.iso, breaks_append, not_breaks_padded, hdash]

theorem not_breaks_time_iso (t : ClockTime) : ¬Breaks t.iso := by
  have hcolon : ¬Breaks ":" := by decide
  have hmicros : ¬Breaks (if t.micros = 0 then "" else "." ++ padded 6 t.micros) := by
    split
    · decide
    · rw [breaks_append, not_or]
      exact ⟨by decide, not_breaks_padded 6 t.micros⟩
  simp [ClockTime.iso, breaks_append, not_breaks_padded, hcolon, hmicros]

theorem not_breaks_isoOffset (minutes : Int) : ¬Breaks (isoOffset minutes) := by
  have hsign : ¬Breaks (if minutes < 0 then "-" else "+") := by
    split <;> decide
  have hcolon : ¬Breaks ":" := by decide
  simp [isoOffset, breaks_append, not_breaks_padded, hsign, hcolon]

theorem not_breaks_iso {between : String} (h : ¬Breaks between) (m : Moment) :
    ¬Breaks (m.iso between) := by
  cases m with
  | date d => exact not_breaks_date_iso d
  | time t => exact not_breaks_time_iso t
  | dateTime d t offset =>
    have hoffset : ¬Breaks ((offset.map isoOffset).getD "") := by
      cases offset with
      | none => decide
      | some minutes => exact not_breaks_isoOffset minutes
    simp [iso, breaks_append, not_breaks_date_iso, not_breaks_time_iso, h, hoffset]

theorem not_breaks_commaSeparated (parts : List Nat) : ¬Breaks (commaSeparated parts) := by
  rw [commaSeparated, breaks_intercalate (by decide)]
  rintro ⟨text, htext, hbreaks⟩
  obtain ⟨n, -, rfl⟩ := List.mem_map.mp htext
  exact not_breaks_toString_nat n hbreaks

theorem not_breaks_renderZone (minutes : Int) : ¬Breaks (renderZone minutes) := by
  unfold renderZone
  split
  · decide
  · split
    all_goals
      simp only [breaks_append, not_or]
      exact ⟨⟨by decide, not_breaks_toString _⟩, by decide⟩

theorem not_breaks_render (m : Moment) : ¬Breaks m.render := by
  have hcall {name arguments : String} (hname : ¬Breaks name) (harguments : ¬Breaks arguments) :
      ¬Breaks (name ++ arguments ++ ")") := by
    rw [breaks_append, breaks_append, not_or, not_or]
    exact ⟨⟨hname, harguments⟩, by decide⟩
  cases m with
  | date d =>
    change ¬Breaks ("datetime.date(" ++ commaSeparated _ ++ ")")
    exact hcall (by decide) (not_breaks_commaSeparated _)
  | time t =>
    change ¬Breaks ("datetime.time(" ++ commaSeparated _ ++ ")")
    exact hcall (by decide) (not_breaks_commaSeparated _)
  | dateTime d t offset =>
    have hzone : ¬Breaks
        ((offset.map fun minutes => ", tzinfo=" ++ renderZone minutes).getD "") := by
      cases offset with
      | none => decide
      | some minutes =>
        simp only [Option.map_some, Option.getD_some, breaks_append, not_or]
        exact ⟨by decide, not_breaks_renderZone minutes⟩
    change ¬Breaks ("datetime.datetime(" ++ commaSeparated _ ++ _ ++ ")")
    rw [breaks_append, not_or]
    refine ⟨?_, by decide⟩
    rw [breaks_append, breaks_append, not_or, not_or]
    exact ⟨⟨by decide, not_breaks_commaSeparated _⟩, hzone⟩

end Moment

namespace Value

theorem not_breaks_renderDecimal (d : Decimal) : ¬Breaks (renderDecimal d) := by
  have hdigits := not_mem_toDigits d.digits
  have htake : ∀ n, '\n' ∉ (Nat.toDigits 10 d.digits).take n := fun n h =>
    hdigits (List.mem_of_mem_take h)
  have hdrop : ∀ n, '\n' ∉ (Nat.toDigits 10 d.digits).drop n := fun n h =>
    hdigits (List.mem_of_mem_drop h)
  have htail : '\n' ∉ (Nat.toDigits 10 d.digits).tail := fun h => hdigits (List.mem_of_mem_tail h)
  rw [renderDecimal, breaks_ofList]
  dsimp only
  repeat' split
  all_goals simp [hdigits, htake, hdrop, htail, not_mem_toDigits, List.mem_replicate]

theorem not_breaks_renderFloat (x : Binary64) : ¬Breaks (renderFloat x) := by
  cases x with
  | nan => decide
  | infinite negative => cases negative <;> decide
  | finite negative mantissa exponent =>
    have htext : ¬Breaks (if mantissa = 0 then "0.0" else
        renderDecimal (.shortest mantissa exponent)) := by
      split
      · decide
      · exact not_breaks_renderDecimal _
    unfold renderFloat
    dsimp only
    split
    · rw [breaks_append, not_or]
      exact ⟨by decide, htext⟩
    · exact htext

mutual

theorem not_breaks_render (v : Value) : ¬Breaks v.render := by
  cases v with
  | null => decide
  | bool b => cases b <;> decide
  | int n => exact not_breaks_toString n
  | float x => exact not_breaks_renderFloat x
  | text s => exact not_breaks_quoted s
  | moment m => exact m.not_breaks_render
  | list items =>
    rw [render, breaks_append, breaks_append, breaks_intercalate (by decide)]
    simpa using ⟨⟨by decide, not_breaks_renderItems items⟩, by decide⟩
  | table entries =>
    rw [render, breaks_append, breaks_append, breaks_intercalate (by decide)]
    simpa using ⟨⟨by decide, not_breaks_renderEntries entries⟩, by decide⟩

theorem not_breaks_renderItems (items : List Value) : ∀ text ∈ renderItems items, ¬Breaks text := by
  cases items with
  | nil => simp [renderItems]
  | cons item rest =>
    rw [renderItems, List.forall_mem_cons]
    exact ⟨not_breaks_render item, not_breaks_renderItems rest⟩

theorem not_breaks_renderEntries (entries : List (String × Value)) :
    ∀ text ∈ renderEntries entries, ¬Breaks text := by
  cases entries with
  | nil => simp [renderEntries]
  | cons entry rest =>
    obtain ⟨key, v⟩ := entry
    rw [renderEntries, List.forall_mem_cons, breaks_append, breaks_append]
    refine ⟨?_, not_breaks_renderEntries rest⟩
    simpa using ⟨⟨not_breaks_quoted key, by decide⟩, not_breaks_render v⟩

end

theorem text_of_breaks_plain {v : Value} (h : Breaks v.plain) : v = .text v.plain := by
  have hshown : ∀ w : Value, ¬Breaks (if w.hasOverlong then w.placeholder else w.render) := by
    intro w
    split
    · unfold placeholder
      split <;> decide
    · exact not_breaks_render w
  cases v with
  | text s => rfl
  | moment m => exact absurd h (Moment.not_breaks_iso (by decide) m)
  | null | bool | int | float | list | table => exact absurd h (hshown _)

end Value

end CopyLint
