import CopyLint.Text.Integer

/-! What the program leaves to the system that it runs on. Whatever is proved about the program
holds on every system. -/
namespace CopyLint

class Host where
  /-- The number that the value of an option stands for. -/
  number : String → Option Int
  /-- What is said about a text that is not TOML. -/
  complaint : List Char → String
  /-- The calls that may be nested in one another while a TOML text is read. -/
  readingRoom : Nat
  /-- The lists and tables that may be nested in one another in a value that is shown. -/
  showingRoom : Nat
  /-- The folders that may be nested in one another below the one that is searched. -/
  walkingRoom : Nat

namespace Host

def noRoomMessage : String := "maximum recursion depth exceeded"

/-- Numbers are read in options as they are in documents. Of what its reader of TOML texts says no
more is told than that there is something. -/
instance usual : Host where
  number s := (Text.readInteger s).toOption
  complaint _ := "<toml syntax error>"
  readingRoom := 992
  showingRoom := 995
  walkingRoom := 995

end Host

end CopyLint
