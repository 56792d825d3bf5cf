import CopyLint.Document.Load
import CopyLint.Proofs.JsonRoundTrip
import CopyLint.Proofs.StableSorting

/-! The keys that a document is read by. Each table of a document has a shape, which declares its
keys; what stands under other keys is not looked at, and neither is the order of keys. The one place
where an order shows is the tag of a reference, which a message repeats as it is written. -/
namespace CopyLint

theorem Value.byKey_eq_of_perm {entries others : List (String × Value)}
    (hkeys : (entries.map (·.1)).Nodup) (h : entries.Perm others) :
    byKey entries = byKey others := by
  apply mergeSort_eq_of_perm
  · simp only [decide_eq_true_eq]
    intro a b c hab hbc
    exact String.le_trans hab hbc
  · intro a b
    simpa using String.le_total a.1 b.1
  · exact h
  · intro a ha b hb hab hba
    have hkey : a.1 = b.1 := String.le_antisymm (of_decide_eq_true hab) (of_decide_eq_true hba)
    have hfound := (get?_eq_some_iff hkeys).mpr ha
    have hfound' := (get?_eq_some_iff hkeys).mpr hb
    rw [hkey, hfound', Option.some.injEq] at hfound
    exact Prod.ext hkey hfound.symm

namespace Document

/-- What is known beforehand of a part of a document. -/
inductive Shape where
  | exact
  /-- Anything; the order of keys does not count. -/
  | leaf
  | list (item : Shape)
  | table (keys : List (String × Shape))
  | reference

namespace Shape

def variants : List (String × List (String × Shape)) := [
  ("primitive", [("name", leaf), ("size", leaf), ("align", leaf), ("words", leaf)]),
  ("named", [("name", leaf), ("identity", leaf)]),
  ("pointer", [("target", reference), ("name", leaf)]),
  ("array", [("elem", reference), ("length", leaf)])]

def variantKeys : Option Value → List (String × Shape)
  | some (.text tag) => (variants.lookup tag).getD []
  | _ => []

def keys? : Shape → Entries → Option (List (String × Shape))
  | .table keys, _ => some keys
  | .reference, entries => some (("kind", exact) :: variantKeys (Value.get? entries "kind"))
  | _, _ => none

def pick (keys : List (String × Shape)) (entries : Entries) : Entries :=
  keys.filterMap fun (key, _) => (Value.get? entries key).map fun v => (key, v)

mutual

/-- The value with no more than the declared keys in each table, in the declared order. -/
def restrict : Shape → Value → Value
  | .exact, v => v
  | .list item, .list items => .list (restrictItems item items)
  | shape, .table entries =>
    match shape.keys? entries with
    | some keys => .table (pick keys (restrictEntries keys entries))
    | none => (Value.table entries).sortKeys
  | _, v => v.sortKeys

def restrictItems (item : Shape) : List Value → List Value
  | [] => []
  | v :: rest => restrict item v :: restrictItems item rest

def restrictEntries (keys : List (String × Shape)) : Entries → Entries
  | [] => []
  | (key, v) :: rest =>
    match keys.lookup key with
    | some shape => (key, restrict shape v) :: restrictEntries keys rest
    | none => restrictEntries keys rest

end

def member : Shape :=
  table [("name", leaf), ("type", reference)]

def typeDef : Shape :=
  table [("name", leaf), ("identity", leaf), ("fields", list member)]

def position : Shape :=
  table [("file", leaf), ("line", leaf), ("column", leaf)]

def signature : Shape :=
  table [("name", leaf), ("position", position), ("receiver", member), ("params", list member),
    ("results", list member), ("display", leaf)]

def package : Shape :=
  table [("name", leaf), ("types", list typeDef), ("imported_types", list typeDef),
    ("functions", list signature)]

def packages : Shape :=
  table [("units", list package)]

end Shape

def shapeOf : Value → Shape
  | .table entries => if (Value.get? entries "units").isSome then .packages else .package
  | _ => .leaf

def restrict (v : Value) : Value :=
  (shapeOf v).restrict v

namespace Shape

theorem restrict_exact (v : Value) : exact.restrict v = v := by
  cases v <;> rfl

theorem restrictItems_eq_map (item : Shape) (items : List Value) :
    restrictItems item items = items.map item.restrict := by
  induction items with
  | nil => rfl
  | cons v rest ih => exact congrArg (item.restrict v :: ·) ih

def restrictKeys (keys : List (String × Shape)) (entries : Entries) : Entries :=
  pick keys (restrictEntries keys entries)

theorem pick_cons (key : String) (shape : Shape) (keys : List (String × Shape))
    (entries : Entries) :
    pick ((key, shape) :: keys) entries =
      ((Value.get? entries key).map fun v => (key, v)).toList ++ pick keys entries := by
  cases h : Value.get? entries key <;> simp [pick, h]

theorem get?_pick (keys : List (String × Shape)) (entries : Entries) (key : String) :
    Value.get? (pick keys entries) key =
      if (keys.lookup key).isSome then Value.get? entries key else none := by
  induction keys with
  | nil => rfl
  | cons declared rest ih =>
    obtain ⟨other, shape⟩ := declared
    rw [pick_cons]
    by_cases heq : key = other
    · subst heq
      cases hget : Value.get? entries key with
      | none => simp [ih, hget]
      | some v => simp
    · have hne : (key == other) = false := beq_eq_false_iff_ne.mpr heq
      rw [List.lookup_cons, hne]
      cases Value.get? entries other with
      | none => exact ih
      | some v => exact (Value.get?_cons_of_ne heq v _).trans ih

theorem get?_restrictEntries {keys : List (String × Shape)} {key : String} {shape : Shape}
    (hkey : keys.lookup key = some shape) (entries : Entries) :
    Value.get? (restrictEntries keys entries) key =
      (Value.get? entries key).map shape.restrict := by
  induction entries with
  | nil => simp [restrictEntries]
  | cons entry rest ih =>
    obtain ⟨other, v⟩ := entry
    by_cases heq : key = other
    · subst heq
      simp [restrictEntries, hkey]
    · rw [Value.get?_cons_of_ne heq, ← ih, restrictEntries]
      split
      · exact Value.get?_cons_of_ne heq _ _
      · rfl

theorem get?_restrictKeys {keys : List (String × Shape)} {key : String} {shape : Shape}
    (hkey : keys.lookup key = some shape) (entries : Entries) :
    Value.get? (restrictKeys keys entries) key = (Value.get? entries key).map shape.restrict := by
  rw [restrictKeys, get?_pick, hkey, get?_restrictEntries hkey]
  rfl

theorem restrict_table {shape : Shape} {entries : Entries} {keys : List (String × Shape)}
    (hkeys : shape.keys? entries = some keys) :
    shape.restrict (.table entries) = .table (restrictKeys keys entries) := by
  cases shape with
  | table | reference =>
    cases hkeys
    rfl
  | exact | leaf | list => cases hkeys

theorem restrict_list (item : Shape) (items : List Value) :
    (list item).restrict (.list items) = .list (items.map item.restrict) :=
  congrArg Value.list (restrictItems_eq_map item items)

variable {α β : Type}

/-- The check reads nothing outside the shape. -/
def Covers (shape : Shape) (check : Value → Checked α) : Prop :=
  ∀ v, check (shape.restrict v) = check v

def KeysCover (keys : List (String × Shape)) (check : Entries → Checked α) : Prop :=
  ∀ entries, check (restrictKeys keys entries) = check entries

theorem covers_textOf : leaf.Covers textOf := by
  intro v
  cases v <;> rfl

theorem covers_countOf : leaf.Covers countOf := by
  intro v
  cases v <;> rfl

theorem Covers.orNull {shape : Shape} {check : Value → Checked α} (h : shape.Covers check) :
    shape.Covers (orNull check) := by
  intro v
  cases v with
  | null => cases shape <;> rfl
  | bool | int | float | text | moment | list | table =>
    cases shape <;> exact congrArg (some <$> ·) (h _)

theorem each_map_of_forall {check : Value → Checked α} {f : Value → Value}
    (h : ∀ v, check (f v) = check v) (index : Nat) (items : List Value) :
    Checked.each check index (items.map f) = Checked.each check index items := by
  induction items generalizing index with
  | nil => rfl
  | cons v rest ih => rw [List.map_cons, Checked.each, Checked.each, h v, ih]

theorem Covers.listOf {item : Shape} {check : Value → Checked α} (h : item.Covers check) :
    (list item).Covers (listOf check) := by
  intro v
  cases v with
  | list items =>
    rw [restrict_list]
    exact each_map_of_forall h 0 items
  | null | bool | int | float | text | moment | table => rfl

theorem KeysCover.tableOf {keys : List (String × Shape)} {check : Entries → Checked α}
    (h : KeysCover keys check) (model : String) : (table keys).Covers (tableOf model check) := by
  intro v
  cases v with
  | table entries =>
    rw [restrict_table rfl]
    exact h entries
  | null | bool | int | float | text | moment | list => rfl

section

variable {keys : List (String × Shape)} {key : String} {shape : Shape}
  (hkey : keys.lookup key = some shape) {check : Value → Checked α} (h : shape.Covers check)
include hkey h

theorem Covers.required : KeysCover keys (required key check) := by
  intro entries
  rw [Document.required, Document.required, get?_restrictKeys hkey]
  cases Value.get? entries key with
  | none => rfl
  | some v => simp [h v]

theorem Covers.optional (default : α) : KeysCover keys (optional key default check) := by
  intro entries
  rw [Document.optional, Document.optional, get?_restrictKeys hkey]
  cases Value.get? entries key with
  | none => rfl
  | some v => simp [h v]

end

theorem KeysCover.map {keys : List (String × Shape)} {check : Entries → Checked α}
    (h : KeysCover keys check) (f : α → β) :
    KeysCover keys fun entries => f <$> check entries := by
  intro entries
  simp only [h entries]

theorem KeysCover.seq {keys : List (String × Shape)} {f : Entries → Checked (α → β)}
    {check : Entries → Checked α} (hf : KeysCover keys f) (h : KeysCover keys check) :
    KeysCover keys fun entries => f entries <*> check entries := by
  intro entries
  simp only [hf entries, h entries]

theorem covers_scalarOf : KeysCover [("kind", exact), ("name", leaf), ("size", leaf),
    ("align", leaf), ("words", leaf)] scalarOf :=
  ((((covers_textOf.required rfl).map _).seq (covers_countOf.orNull.optional rfl _)).seq
    (covers_countOf.optional rfl _)).seq (covers_countOf.optional rfl _)

theorem covers_namedOf : KeysCover [("kind", exact), ("name", leaf), ("identity", leaf)] namedOf :=
  ((covers_textOf.required rfl).map _).seq (covers_textOf.orNull.optional rfl _)

theorem covers_pointerOf {room : Nat} (h : reference.Covers (refOf room)) :
    KeysCover [("kind", exact), ("target", reference), ("name", leaf)] fun entries =>
      pointerTo <$> optional "target" none (orNull (refOf room)) entries
        <*> optional "name" "" textOf entries :=
  ((h.orNull.optional rfl _).map _).seq (covers_textOf.optional rfl _)

theorem covers_arrayOf {room : Nat} (h : reference.Covers (refOf room)) :
    KeysCover [("kind", exact), ("elem", reference), ("length", leaf)] fun entries =>
      arrayOf <$> required "elem" (refOf room) entries <*> required "length" countOf entries :=
  ((h.required rfl).map _).seq (covers_countOf.required rfl)

/-- The tag is kept, so that the same keys are declared before and after; which check then reads
them depends on the tag alone. -/
theorem covers_refOf (room : Nat) : reference.Covers (refOf room) := by
  intro v
  cases v with
  | table entries =>
    rw [restrict_table rfl]
    have hkind : Value.get? (restrictKeys (("kind", exact) ::
        variantKeys (Value.get? entries "kind")) entries) "kind" = Value.get? entries "kind" := by
      rw [get?_restrictKeys rfl, funext restrict_exact]
      exact Option.map_id_apply
    unfold refOf
    simp only [hkind]
    split
    · rfl
    · rename_i tag htag
      split
      · rename_i hmem
        simp only [List.mem_cons, List.not_mem_nil, or_false] at hmem
        rw [htag]
        cases room with
        | zero => rfl
        | succ room =>
          have hinner := covers_refOf room
          rcases hmem with rfl | rfl | rfl | rfl
          · exact congrArg _ (covers_scalarOf entries)
          · exact congrArg _ (covers_namedOf entries)
          · exact congrArg _ (covers_pointerOf hinner entries)
          · exact congrArg _ (covers_arrayOf hinner entries)
      · rfl
    · rfl
  | null | bool | int | float | text | moment | list => cases room <;> rfl

theorem covers_fieldOf : member.Covers fieldOf :=
  (((covers_textOf.optional rfl _).map _).seq ((covers_refOf depthLimit).required rfl)).tableOf _

theorem covers_paramOf : member.Covers paramOf :=
  (((covers_textOf.optional rfl _).map _).seq ((covers_refOf depthLimit).required rfl)).tableOf _

theorem covers_typeDefOf : typeDef.Covers typeDefOf :=
  ((((covers_textOf.required rfl).map _).seq (covers_textOf.orNull.optional rfl _)).seq
    (covers_fieldOf.listOf.optional rfl _)).tableOf _

theorem covers_positionOf : position.Covers positionOf :=
  ((((covers_textOf.required rfl).map _).seq (covers_countOf.required rfl)).seq
    (covers_countOf.required rfl)).tableOf _

theorem covers_signatureOf : signature.Covers signatureOf :=
  (((((((covers_textOf.required rfl).map _).seq (covers_positionOf.required rfl)).seq
    (covers_paramOf.orNull.optional rfl _)).seq (covers_paramOf.listOf.optional rfl _)).seq
    (covers_paramOf.listOf.optional rfl _)).seq (covers_textOf.optional rfl _)).tableOf _

theorem covers_packageOf : package.Covers packageOf :=
  (((((covers_textOf.optional rfl _).map _).seq (covers_typeDefOf.listOf.optional rfl _)).seq
    (covers_typeDefOf.listOf.optional rfl _)).seq
    (covers_signatureOf.listOf.optional rfl _)).tableOf _

theorem covers_documentOf : packages.Covers documentOf :=
  KeysCover.tableOf (covers_packageOf.listOf.required rfl) _

end Shape

theorem normalize_of_units {entries : Entries} (h : (Value.get? entries "units").isSome) :
    normalize (.table entries) = .table entries :=
  if_pos h

theorem normalize_of_no_units {entries : Entries} (h : ¬(Value.get? entries "units").isSome) :
    normalize (.table entries) = .table [("units", .list [.table entries])] :=
  if_neg h

theorem normalize_restrict (v : Value) :
    normalize (restrict v) = Shape.packages.restrict (normalize v) := by
  cases v with
  | table entries =>
    by_cases hunits : (Value.get? entries "units").isSome
    · rw [restrict, shapeOf, if_pos hunits, normalize_of_units hunits, Shape.packages,
        Shape.restrict_table rfl]
      apply normalize_of_units
      rwa [Shape.get?_restrictKeys rfl, Option.isSome_map]
    · rw [restrict, shapeOf, if_neg hunits, normalize_of_no_units hunits]
      apply normalize_of_no_units
      rw [Shape.get?_pick]
      exact Bool.false_ne_true
  | null | bool | int | float | text | moment | list => rfl

end Document

/-- Documents that have the same under their declared keys load alike, with the same packages or the
same error, whatever stands under other keys and whatever the order of keys is. -/
theorem loadPackages_reads_declared_keys (source : String) (v w : Value)
    (h : Document.restrict v = Document.restrict w) :
    loadPackages source v = loadPackages source w := by
  have hread : ∀ u, Document.documentOf (Document.normalize (Document.restrict u)) =
      Document.documentOf (Document.normalize u) := by
    intro u
    rw [Document.normalize_restrict]
    exact Document.Shape.covers_documentOf _
  unfold loadPackages
  rw [← hread v, ← hread w, h]

def sparseDocument : Value :=
  .table [("types", .list [.table [("name", .text "T"), ("fields", .list [.table [("type",
    .table [("kind", .text "array"), ("elem", .table [("kind", .text "primitive")])])]])]])]

def noisyDocument : Value :=
  .table [("note", .int 0), ("types", .list [.table [("fields", .list [.table [("at", .null),
    ("type", .table [
      ("elem", .table [("target", .table [("kind", .int 5)]), ("kind", .text "primitive")]),
      ("size", .int (-1)), ("kind", .text "array")])]]), ("name", .text "T")]])]

theorem loadPackages_reads_declared_keys_noisy :
    Document.restrict noisyDocument = Document.restrict sparseDocument ∧
    loadPackages "g.json" noisyDocument = .error (.invalid "g.json" ⟨["units", "0", "types", "0",
      "fields", "0", "type", "array", "elem", "primitive", "name"], .missing⟩ 1) := by
  have hrestrict : Document.restrict noisyDocument = Document.restrict sparseDocument := rfl
  refine ⟨hrestrict, ?_⟩
  rw [loadPackages_reads_declared_keys "g.json" _ _ hrestrict]
  rfl

def kindDocument (kind : Value) : Value :=
  .table [("types", .list [.table [("name", .text "T"),
    ("fields", .list [.table [("type", .table [("kind", kind)])]])]])]

/-- In the tag of a reference, the same keys in another order make another message. -/
theorem unknown_kind_shows_key_order :
    (Document.restrict (kindDocument (.table [("b", .int 1), ("a", .int 2)]))).sortKeys =
      (Document.restrict (kindDocument (.table [("a", .int 2), ("b", .int 1)]))).sortKeys ∧
    ∃ cause cause',
      loadPackages "g.json" (kindDocument (.table [("b", .int 1), ("a", .int 2)])) =
        .error cause ∧
      loadPackages "g.json" (kindDocument (.table [("a", .int 2), ("b", .int 1)])) =
        .error cause' ∧
      cause.message ≠ cause'.message := by
  have hkept : ∀ entries, Document.restrict (kindDocument (.table entries)) =
      kindDocument (.table entries) := fun _ => rfl
  have hpair : Value.byKey [("b", Value.int 1), ("a", Value.int 2)] =
      Value.byKey [("a", Value.int 2), ("b", Value.int 1)] :=
    Value.byKey_eq_of_perm (by decide) (.swap _ _ _)
  refine ⟨?_, _, _, rfl, rfl, by decide +kernel⟩
  rw [hkept, hkept]
  simp only [kindDocument, Value.sortKeys, Value.sortItems, Value.sortEntries, hpair]

end CopyLint
