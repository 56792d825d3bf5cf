import CopyLint.Report

/-! The analysis of packages: which of their structs are wide, which of their signatures copy one,
and the size of every struct. -/
namespace CopyLint

structure Inspection where
  wide : List String
  sites : List CopySite
  deriving DecidableEq, Repr

def Package.inspect (config : Config) (p : Package) : Except LayoutError Inspection := do
  let wide ← ((classify config (Sizing.footprint config p.index) p.types).run []).1
  pure ⟨wide, copySites wide p.signatures⟩

def Inspection.summary (p : Package) (found : Inspection) : String :=
  s!"unit {p.label}: {p.types.length} types, {found.wide.length} wide, " ++
    s!"{p.signatures.length} signatures, {found.sites.length} copy sites"

structure Analysis where
  sites : List CopySite
  packageCount : Nat
  deriving DecidableEq, Repr

def Analysis.hasFindings (a : Analysis) : Bool :=
  !a.sites.isEmpty

def analyze (config : Config) (packages : List Package) : Except LayoutError Analysis := do
  let found ← packages.mapM (Package.inspect config)
  pure ⟨CopySite.sorted (found.flatMap (·.sites)), packages.length⟩

structure FootprintRow where
  package : String
  name : String
  identity : String
  footprint : Int
  wide : Bool
  deriving DecidableEq, Repr

def FootprintRow.le (a b : FootprintRow) : Bool :=
  if a.package = b.package then a.name ≤ b.name else a.package < b.package

def Package.footprintRows (config : Config) (p : Package) :
    Except LayoutError (List FootprintRow) :=
  let row (t : TypeDef) : Sizing FootprintRow := do
    let size ← Sizing.footprint config p.index t
    pure ⟨p.name, t.name, t.identity, size, config.maxWidth < size⟩
  ((p.types.mapM row).run []).1

/-- By package, then by name; the rest keeps its order. -/
def footprintTable (config : Config) (packages : List Package) :
    Except LayoutError (List FootprintRow) := do
  let rows ← packages.mapM (Package.footprintRows config)
  pure (rows.flatten.mergeSort FootprintRow.le)

def FootprintRow.line (row : FootprintRow) : Except OverlongNumber String := do
  let name := if row.package = "" then row.name else row.package ++ "." ++ row.name
  let mark := if row.wide then "wide" else "-"
  let size ← numeral row.footprint
  pure s!"{name}\t{size}\t{mark}"

end CopyLint
