import CopyLint.Proofs.Findings
import CopyLint.Proofs.JsonText

/-! The words for a place where a struct is copied. Names of parameters and types go into the text as
they are, so they may look like any part of it; the first letters and the digits at the end still
tell the place, because nothing that a user chose stands there. -/
namespace CopyLint

/-! Reading a place back. -/

def lastNumber (text : String) : Nat :=
  Digits.value (text.toList.reverse.takeWhile Char.isDigit).reverse

theorem toList_append_toString (label : String) (n : Nat) :
    (label ++ toString n).toList = label.toList ++ Nat.toDigits 10 n := by
  rw [String.toList_append]
  exact congrArg (label.toList ++ ·) String.toList_ofList

theorem lastNumber_append {label : String} {before : List Char}
    (h : label.toList = before ++ [' ']) (n : Nat) : lastNumber (label ++ toString n) = n := by
  have hdigits : ∀ c ∈ (Nat.toDigits 10 n).reverse, c.isDigit = true := fun c hc =>
    Json.isDigit_toDigits n c (List.mem_reverse.mp hc)
  have hspace : ¬Char.isDigit ' ' = true := by decide
  rw [lastNumber, toList_append_toString, h, List.reverse_append, List.reverse_append,
    List.takeWhile_append_of_pos hdigits, List.reverse_singleton, List.singleton_append,
    List.takeWhile_cons_of_neg hspace, List.append_nil, List.reverse_reverse,
    Json.value_toDigits]

namespace Place

/-- The place that a text describes, by its first letters and the number at its end. -/
def read? (text : String) : Option Place :=
  match text.toList with
  | 'p' :: _ => some (param (lastNumber text))
  | 'r' :: 'e' :: 't' :: _ => some (result (lastNumber text))
  | 'r' :: 'e' :: 'c' :: _ => some receiver
  | _ => none

theorem read?_param {label : String} {before rest : List Char} (hfirst : label.toList = 'p' :: rest)
    (hlast : label.toList = before ++ [' ']) (index : Nat) :
    read? (label ++ toString index) = some (param index) := by
  rw [read?, lastNumber_append hlast, toList_append_toString, hfirst]
  rfl

theorem read?_result {label : String} {before rest : List Char}
    (hfirst : label.toList = 'r' :: 'e' :: 't' :: rest) (hlast : label.toList = before ++ [' '])
    (index : Nat) : read? (label ++ toString index) = some (result index) := by
  rw [read?, lastNumber_append hlast, toList_append_toString, hfirst]
  rfl

theorem toList_quoted_label (start name : String) :
    (start ++ name ++ "' at index ").toList =
      start.toList ++ name.toList ++ "' at index".toList ++ [' '] := by
  have hspace : "' at index ".toList = "' at index".toList ++ [' '] := by decide
  rw [String.toList_append, String.toList_append, hspace, ← List.append_assoc]

theorem read?_describeParam (index : Nat) (p : Param) :
    read? (Signature.describeParam index p) = some (.param index) := by
  unfold Signature.describeParam
  split
  · have hlast : "parameter at index ".toList = "parameter at index".toList ++ [' '] := by decide
    exact read?_param rfl hlast index
  · have hlast := toList_quoted_label "parameter '" p.name
    exact read?_param (hlast.trans rfl) hlast index

theorem read?_describeResult (index : Nat) (typeName : String) :
    read? (Signature.describeResult index typeName) = some (.result index) := by
  have hlast := toList_quoted_label "return value '" typeName
  exact read?_result (hlast.trans rfl) hlast index

theorem read?_describe (p : Place × Param) : read? (describe p) = some p.1 := by
  obtain ⟨place, param⟩ := p
  cases place with
  | receiver =>
    rw [describe, read?]
    rfl
  | param index => exact read?_describeParam index param
  | result index => exact read?_describeResult index _

/-- The receiver comes first, then the parameters and then the results, each by their indices. -/
inductive Before : Place → Place → Prop where
  | receiverParam (index : Nat) : Before receiver (param index)
  | receiverResult (index : Nat) : Before receiver (result index)
  | params {i j : Nat} : i < j → Before (param i) (param j)
  | paramResult (i j : Nat) : Before (param i) (result j)
  | results {i j : Nat} : i < j → Before (result i) (result j)

theorem Before.ne {place later : Place} (h : place.Before later) : place ≠ later := by
  rintro rfl
  cases h with
  | params h | results h => exact Nat.lt_irrefl _ h

end Place

/-! Places of a signature. -/

theorem map_fst_placed (place : Nat → Place) (params : List Param) :
    (placed place params).map (·.1) = (List.range params.length).map place := by
  rw [placed, List.map_map, List.range_eq_range', ← List.zipIdx_map_snd 0 params, List.map_map]
  rfl

namespace Signature

def at? (s : Signature) : Place → Option Param
  | .receiver => s.receiver
  | .param index => s.params[index]?
  | .result index => s.results[index]?

/-- There is a struct from the list at the place, and not a pointer to one or an array of them. -/
def Flags (s : Signature) (wide : List String) (place : Place) : Prop :=
  ∃ param identity name, s.at? place = some param ∧ param.type = .named identity name ∧
    identity ∈ wide

theorem mem_places {s : Signature} {place : Place} {param : Param} :
    (place, param) ∈ s.places ↔ s.at? place = some param := by
  rw [places, List.mem_append, List.mem_append]
  cases place <;> simp [placed, at?, List.mk_mem_zipIdx_iff_getElem?]

theorem pairwise_places (s : Signature) : (s.places.map (·.1)).Pairwise Place.Before := by
  simp only [places, List.map_append, map_fst_placed, List.map_map]
  rw [List.pairwise_append, List.pairwise_append]
  refine ⟨⟨?_, ?_, ?_⟩, ?_, ?_⟩
  · cases s.receiver <;> simp
  · rw [List.pairwise_map]
    exact List.pairwise_lt_range.imp .params
  · simp only [List.mem_map]
    rintro _ ⟨_, _, rfl⟩ _ ⟨index, _, rfl⟩
    exact .receiverParam index
  · rw [List.pairwise_map]
    exact List.pairwise_lt_range.imp .results
  · simp only [List.mem_append, List.mem_map]
    rintro _ (⟨_, _, rfl⟩ | ⟨i, _, rfl⟩) _ ⟨j, _, rfl⟩
    · exact .receiverResult j
    · exact .paramResult i j

section

variable {s : Signature} {wide : List String} {place : Place}

theorem flags_iff_isWide {param : Param} (h : s.at? place = some param) :
    s.Flags wide place ↔ param.type.isWide wide = true := by
  unfold Flags
  constructor
  · rintro ⟨_, identity, name, hparam, htype, hmem⟩
    cases h.symm.trans hparam
    simpa [htype, TypeRef.isWide] using hmem
  · intro hwide
    cases htype : param.type with
    | named identity name =>
      rw [htype, TypeRef.isWide, List.contains_iff_mem] at hwide
      exact ⟨param, identity, name, h, htype, hwide⟩
    | scalar | pointer | rawPointer | array | unsupported =>
      rw [htype] at hwide
      cases hwide

theorem mem_map_widePlaces :
    place ∈ (widePlaces wide s.places).map (·.1) ↔ s.Flags wide place := by
  simp only [widePlaces, List.mem_map, List.mem_filter, Prod.exists, exists_and_right,
    exists_eq_right]
  constructor
  · rintro ⟨param, hmem, hwide⟩
    exact (flags_iff_isWide (mem_places.mp hmem)).mpr hwide
  · intro h
    obtain ⟨param, _, _, hparam, _⟩ := id h
    exact ⟨param, mem_places.mpr hparam, (flags_iff_isWide hparam).mp h⟩

theorem widePlaces_congr {wide' : List String}
    (h : ∀ place, s.Flags wide place ↔ s.Flags wide' place) :
    widePlaces wide s.places = widePlaces wide' s.places := by
  apply List.filter_congr
  rintro ⟨place, param⟩ hmem
  have hparam := mem_places.mp hmem
  rw [Bool.eq_iff_iff, ← flags_iff_isWide hparam, ← flags_iff_isWide hparam]
  exact h place

end

/-- Whatever the names in a signature are, the descriptions of the places that copy a wide struct can
be read back: they give exactly these places, in order. So no two of them are the same, and two lists
of wide structs lead to the same descriptions only if they flag the same places. -/
theorem descriptions_identify_places (s : Signature) (wide : List String) :
    (∃ places : List Place, (s.offending wide).map Place.read? = places.map some ∧
      places.Pairwise Place.Before ∧ ∀ place, place ∈ places ↔ s.Flags wide place) ∧
    (s.offending wide).Nodup ∧
    ∀ wide', s.offending wide = s.offending wide' ↔
      ∀ place, s.Flags wide place ↔ s.Flags wide' place := by
  have hsome : Function.Injective (some : Place → Option Place) := fun _ _ => Option.some.inj
  have hread : ∀ wide, (s.offending wide).map Place.read? =
      ((widePlaces wide s.places).map (·.1)).map some := by
    intro wide
    rw [offending_eq_widePlaces, List.map_map, List.map_map]
    exact List.map_congr_left fun p _ => Place.read?_describe p
  have hordered : ((widePlaces wide s.places).map (·.1)).Pairwise Place.Before :=
    s.pairwise_places.sublist (List.filter_sublist.map _)
  refine ⟨⟨_, hread wide, hordered, fun place => mem_map_widePlaces⟩, ?_, fun wide' => ⟨?_, ?_⟩⟩
  · have hplaces : ((widePlaces wide s.places).map (·.1)).Nodup := hordered.imp Place.Before.ne
    have hnodup : ((s.offending wide).map Place.read?).Nodup := by
      rw [hread]
      exact hplaces.map hsome
    exact hnodup.of_map
  · intro heq place
    have hplaces : ((widePlaces wide s.places).map (·.1)).map some =
        ((widePlaces wide' s.places).map (·.1)).map some := by
      rw [← hread, ← hread, heq]
    rw [← mem_map_widePlaces, ← mem_map_widePlaces,
      List.map_injective_iff.mpr hsome hplaces]
  · intro hflags
    rw [offending_eq_widePlaces, offending_eq_widePlaces, widePlaces_congr hflags]

end Signature

end CopyLint
