/-! Paths, reduced to the parts that count: empty parts and single dots vanish, double dots stay. -/
namespace CopyLint

structure Path where
  /-- The slashes that an absolute path starts with: two stay two, any other number is one. -/
  root : String := ""
  parts : List String := []
  deriving DecidableEq, Repr

namespace Path

def rootOf (s : List Char) : String :=
  match (s.takeWhile (· = '/')).length with
  | 0 => ""
  | 2 => "//"
  | _ => "/"

def ofString (s : String) : Path :=
  let parts := (s.toList.splitOn '/').map String.ofList
  ⟨rootOf s.toList, parts.filter fun part => part ≠ "" && part ≠ "."⟩

def absolute (p : Path) : Bool :=
  p.root ≠ ""

def render (p : Path) : String :=
  if p = {} then "." else p.root ++ "/".intercalate p.parts

def nameLimit : Nat := 255

def textLimit : Nat := 4095

def within (p : Path) (names : List String) : Path :=
  { p with parts := p.parts ++ names }

def join (p : Path) (name : String) : Path :=
  p.within [name]

def name (p : Path) : String :=
  p.parts.getLast?.getD ""

/-- A name's last point and what follows it, unless the point is its first or last character. -/
def suffixOf (name : String) : String :=
  let fromEnd := name.toList.reverse
  let extension := fromEnd.takeWhile (· ≠ '.')
  match fromEnd.dropWhile (· ≠ '.') with
  | _ :: _ :: _ => if extension = [] then "" else String.ofList ('.' :: extension.reverse)
  | _ => ""

def suffix (p : Path) : String :=
  suffixOf p.name

end Path

end CopyLint
