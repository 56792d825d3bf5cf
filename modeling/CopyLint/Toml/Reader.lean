import CopyLint.Toml.Number

/-! TOML texts as tables. Besides its data a document knows which tables a header may not open
again, and which values are closed to later additions. -/
namespace CopyLint.Toml

abbrev Entries := List (String × Value)

/-- Changes the table at the end of a path and makes the tables on the way that are not there. On
the way through an array of tables, if that is allowed, the last one counts. -/
def modifyAt (throughLists : Bool) (change : Entries → Option Entries) :
    List String → Entries → Option Entries
  | [], entries => change entries
  | key :: path, entries =>
    match Value.get? entries key with
    | none => do
      let inner ← modifyAt throughLists change path []
      pure (Value.put key (.table inner) entries)
    | some (.table inner) => do
      let inner ← modifyAt throughLists change path inner
      pure (Value.put key (.table inner) entries)
    | some (.list items) =>
      match throughLists, items.getLast? with
      | true, some (.table inner) => do
        let inner ← modifyAt throughLists change path inner
        pure (Value.put key (.list (items.dropLast ++ [.table inner])) entries)
      | _, _ => none
    | some _ => none

def addNew (key : String) (value : Value) (entries : Entries) : Option Entries :=
  if (Value.get? entries key).isSome then none else some (Value.put key value entries)

def addTable (key : String) (entries : Entries) : Option Entries :=
  match Value.get? entries key with
  | none => some (Value.put key (.list [.table []]) entries)
  | some (.list items) => some (Value.put key (.list (items ++ [.table []])) entries)
  | some _ => none

def isContainer : Value → Bool
  | .table _ | .list _ => true
  | _ => false

def orMalformed {α : Type} : Option α → Except Fault α
  | some a => pure a
  | none => throw .malformed

def splitKey (parts : List String) : List String × String :=
  (parts.dropLast, parts.getLast?.getD "")

def isUnder (paths : List (List String)) (path : List String) : Bool :=
  paths.any fun p => p.isPrefixOf path

def simpleValue (fuel : Nat) (s : List Char) : Except Fault (Value × List Char) :=
  match quotedText? fuel s with
  | some reading => do
    let (text, rest) ← reading
    pure (.text text, rest)
  | none =>
    match Json.afterWord? "true" s, Json.afterWord? "false" s with
    | some rest, _ => pure (.bool true, rest)
    | none, some rest => pure (.bool false, rest)
    | none, none =>
      match moment? s with
      | some reading => reading
      | none =>
        match basedInteger? s with
        | some found => pure found
        | none =>
          match decimal? s with
          | some reading => reading
          | none => orMalformed (special? s)

def enter (calls room : Nat) : Except Fault Nat :=
  if room < calls then throw .tooDeep else pure (room - calls)

mutual

/-- Each call passes on less fuel than it has. Two for each character are enough, since every second
call reads one. There is room for that many calls in one another: an array takes two of them, and an
inline table three. -/
def readValue (room fuel : Nat) (s : List Char) : Except Fault (Value × List Char) :=
  match fuel with
  | 0 => throw .malformed
  | fuel + 1 =>
    match s with
    | '[' :: rest => do
      let room ← enter 2 room
      let rest ← skipFiller fuel rest
      let (items, rest) ← readItems room fuel [] rest
      pure (.list items, rest)
    | '\x7b' :: rest => do
      let room ← enter 3 room
      match skipBlank rest with
      | '\x7d' :: rest => pure (.table [], rest)
      | rest => do
        let (entries, rest) ← readInline room fuel [] [] rest
        pure (.table entries, rest)
    | _ => simpleValue fuel s

/-- The items of an array, latest first in `items`. A comma may follow the last. -/
def readItems (room fuel : Nat) (items : List Value) (s : List Char) :
    Except Fault (List Value × List Char) :=
  match fuel with
  | 0 => throw .malformed
  | fuel + 1 =>
    match s with
    | ']' :: rest => pure (items.reverse, rest)
    | _ => do
      let (item, rest) ← readValue room fuel s
      match ← skipFiller fuel rest with
      | ']' :: rest => pure ((item :: items).reverse, rest)
      | ',' :: rest => readItems room fuel (item :: items) (← skipFiller fuel rest)
      | _ => throw .malformed

/-- The entries of an inline table. Later keys do not reach into the values of earlier ones. -/
def readInline (room fuel : Nat) (closed : List (List String)) (entries : Entries)
    (s : List Char) : Except Fault (Entries × List Char) :=
  match fuel with
  | 0 => throw .malformed
  | fuel + 1 => do
    let (parts, rest) ← key fuel s
    let rest ← expect '=' rest
    let (value, rest) ← readValue room fuel (skipBlank rest)
    if isUnder closed parts then throw .malformed
    let (path, last) := splitKey parts
    let entries ← orMalformed (modifyAt false (addNew last value) path entries)
    match skipBlank rest with
    | '\x7d' :: rest => pure (entries, rest)
    | ',' :: rest =>
      let closed := if isContainer value then parts :: closed else closed
      readInline room fuel closed entries (skipBlank rest)
    | _ => throw .malformed

end

structure Document where
  root : Entries := []
  header : List String := []
  /-- Tables that no header may open. -/
  opened : List (List String) := []
  /-- Tables made by points in a key, which join the opened ones at the next header. -/
  pending : List (List String) := []
  /-- Values that nothing may be added to, at any depth. -/
  closed : List (List String) := []

namespace Document

def settle (d : Document) : Document :=
  { d with opened := d.pending ++ d.opened, pending := [] }

def openTable (d : Document) (path : List String) : Except Fault Document := do
  if d.opened.contains path || isUnder d.closed path then throw .malformed
  let root ← orMalformed (modifyAt true some path d.root)
  pure { d with root, header := path, opened := path :: d.opened }

/-- The header of one more table in an array; it may have tables of the same names as the last. -/
def openItem (d : Document) (path : List String) : Except Fault Document := do
  if isUnder d.closed path then throw .malformed
  let (parent, last) := splitKey path
  let root ← orMalformed (modifyAt true (addTable last) parent d.root)
  let outside (p : List String) : Bool := !path.isPrefixOf p
  pure { d with
    root
    header := path
    opened := path :: d.opened.filter outside
    closed := d.closed.filter outside }

def passed (header parts : List String) : List (List String) :=
  (List.range (parts.length - 1)).map fun i => header ++ parts.take (i + 1)

def addEntry (d : Document) (parts : List String) (value : Value) : Except Fault Document := do
  let passed := passed d.header parts
  if passed.any d.opened.contains then throw .malformed
  let (parent, last) := splitKey parts
  if isUnder d.closed (d.header ++ parent) then throw .malformed
  let root ← orMalformed (modifyAt true (addNew last value) (d.header ++ parent) d.root)
  let closed := if isContainer value then (d.header ++ parts) :: d.closed else d.closed
  pure { d with root, closed, pending := passed ++ d.pending }

end Document

def statement (room fuel : Nat) (d : Document) (s : List Char) :
    Except Fault (Document × List Char) :=
  match s with
  | '[' :: '[' :: rest => do
    let (path, rest) ← key fuel (skipBlank rest)
    let d ← d.settle.openItem path
    let rest ← expect ']' rest
    let rest ← expect ']' rest
    pure (d, rest)
  | '[' :: rest => do
    let (path, rest) ← key fuel (skipBlank rest)
    let d ← d.settle.openTable path
    let rest ← expect ']' rest
    pure (d, rest)
  | '#' :: _ => pure (d, s)
  | _ => do
    let (parts, rest) ← key fuel s
    let rest ← expect '=' rest
    let (value, rest) ← readValue room fuel (skipBlank rest)
    let d ← d.addEntry parts value
    pure (d, rest)

def statements (room fuel : Nat) (d : Document) (s : List Char) : Except Fault Document :=
  match fuel with
  | 0 => pure d
  | fuel + 1 =>
    match skipBlank s with
    | [] => pure d
    | '\n' :: rest => statements room fuel d rest
    | s => do
      let (d, rest) ← statement room fuel d s
      match ← skipComment (skipBlank rest) with
      | [] => pure d
      | '\n' :: rest => statements room fuel d rest
      | _ => throw .malformed

def read (room : Nat) (text : List Char) : Except Fault Entries := do
  let d ← statements room (2 * text.length + 2) {} text
  pure d.root

end CopyLint.Toml
