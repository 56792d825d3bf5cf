import CopyLint.Package
import CopyLint.Text.Quoted

/-! Import-path patterns. Three dots stand for any text within a line, every other character for
itself; `a/...` is `a` and all below it. -/
namespace CopyLint

namespace Pattern

inductive Token where
  | literal (c : Char)
  | wildcard
  deriving DecidableEq, Repr

/-- Dots are taken three at a time from the left. -/
def tokens : List Char → List Token
  | '.' :: '.' :: '.' :: rest => .wildcard :: tokens rest
  | c :: rest => .literal c :: tokens rest
  | [] => []

/-- Whether the tokens spell the text, with any text within a line for each wildcard. -/
def Token.spell : List Token → List Char → Bool
  | [], [] => true
  | [], _ :: _ => false
  | .literal _ :: _, [] => false
  | .literal a :: rest, c :: text => a = c && spell rest text
  | .wildcard :: rest, [] => spell rest []
  | .wildcard :: rest, c :: text =>
    spell rest (c :: text) || (c ≠ '\n' && spell (.wildcard :: rest) text)
termination_by tokens text => tokens.length + text.length

def isSpecial (c : Char) : Bool :=
  "()[]\x7b\x7d?*+-|^$\\.&~# \t\n\r\x0b\x0c".toList.contains c

def Token.regexp : Token → List Char
  | .literal c => if isSpecial c then ['\\', c] else [c]
  | .wildcard => ['.', '*']

end Pattern

structure Pattern where
  body : List Pattern.Token
  subtree : Bool
  deriving DecidableEq, Repr

namespace Pattern

def ofString (s : String) : Pattern :=
  let all := tokens s.toList
  let rest := all.dropLast.dropLast
  if all = rest ++ [.literal '/', .wildcard] then ⟨rest, true⟩ else ⟨all, false⟩

def regexp (p : Pattern) : String :=
  let body := p.body.flatMap Token.regexp
  String.ofList ('^' :: body ++ (if p.subtree then "(/.*)?".toList else []) ++ ['$'])

def spells (p : Pattern) (text : List Char) : Bool :=
  Token.spell p.body text ||
    p.subtree && Token.spell (p.body ++ [.literal '/', .wildcard]) text

/-- One line break at the end of a name does not count. -/
def isMatch (p : Pattern) (name : String) : Bool :=
  let text := name.toList
  p.spells text || text.getLast? = some '\n' && p.spells text.dropLast

end Pattern

structure NoMatch where
  pattern : String
  deriving DecidableEq, Repr

def NoMatch.message (e : NoMatch) : String :=
  s!"unable to find packages matching {Text.quoted e.pattern}"

/-- Slashes at the end do not count, unless the pattern has nothing else. -/
def Pattern.ofRequest (request : String) : Pattern :=
  let trimmed := (request.toList.reverse.dropWhile (· = '/')).reverse
  .ofString (if trimmed = [] then request else String.ofList trimmed)

def selectPackages (request : Option String) (packages : List Package) :
    Except NoMatch (List Package) :=
  match request with
  | none => pure packages
  | some request =>
    match packages.filter fun p => (Pattern.ofRequest request).isMatch p.name with
    | [] => throw ⟨request⟩
    | selected => pure selected

end CopyLint
