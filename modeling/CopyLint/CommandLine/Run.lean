import CopyLint.Analysis
import CopyLint.CommandLine.Invocation
import CopyLint.Config.Exclude
import CopyLint.Discovery
import CopyLint.Pattern
import CopyLint.Text.Escape

/-! A run of the program over a directory tree: what it prints and how it ends. -/
namespace CopyLint.CommandLine

inductive Failure where
  | configFile (cause : ConfigFileError)
  | config (cause : Config.NotPositive)
  | format (cause : UnknownFormat)
  | discovery (cause : DiscoveryError)
  | document (cause : DocumentError)
  | selection (cause : NoMatch)
  | layout (cause : LayoutError)
  | rendering (cause : RenderError)

namespace Failure

def message : Failure → String
  | configFile cause => cause.message
  | config cause => cause.message
  | format cause => cause.message
  | discovery cause => cause.message
  | document cause => cause.message
  | selection cause => cause.message
  | layout cause => cause.message
  | rendering cause => cause.message

def escapes [Host] : Failure → Bool
  | configFile cause => cause.escapes
  | config cause => cause.escapes
  | discovery cause => cause.escapes
  | document cause => cause.escapes
  | layout (.unsupportedRef _) | layout (.zeroAlignment _) | rendering _ => true
  | _ => false

end Failure

/-- A run that keeps a log, also of what was done before it failed. -/
abbrev Run := ExceptT Failure (StateM (List String))

def log (line : String) : Run Unit :=
  modify (· ++ [line])

def orFail {ε α : Type} (wrap : ε → Failure) : Except ε α → Run α
  | .ok a => pure a
  | .error cause => throw (wrap cause)

namespace Invocation

/-- Numbers given as options stand before those of the configuration file. -/
def options (i : Invocation) : Config.Section :=
  let entry (n : Option Int) : Value := (n.map Value.int).getD .null
  [("max", entry i.maxWidth), ("word_size", entry i.wordSize), ("max_align", entry i.maxAlign)]

def settings [Host] (i : Invocation) (tree : FileTree) : Run (Config × List String) := do
  let defaults ← orFail .configFile (Config.readSection tree i.root i.configFile)
  let merged := Config.override i.options defaults
  let config ← orFail .config (Config.ofSection merged)
  pure (config, Config.excluded merged)

def loadDocument [Host] (tree : FileTree) (format : Format) (path : Path) :
    Run (List Package) := do
  let packages ← orFail .document (format.loadDocument tree path)
  log s!"loaded {packages.length} unit(s) from {path.render}"
  pure packages

def packages [Host] (i : Invocation) (tree : FileTree) (exclude : List String) :
    Run (List Package) := do
  let format ← orFail .format (Format.choose i.format Format.json.name i.paths)
  let files ← orFail .discovery (format.discover exclude tree i.paths)
  log s!"{format.name} provider: {files.length} document(s)"
  let loaded ← files.mapM (loadDocument tree format)
  orFail .selection (selectPackages i.package loaded.flatten)

def inspect (config : Config) (p : Package) : Run (List CopySite) := do
  let found ← orFail .layout (p.inspect config)
  log (found.summary p)
  pure found.sites

def unlines (lines : List String) : String :=
  String.join (lines.map (· ++ "\n"))

/-- Lines as they are printed. Names from a document cannot steer the terminal. -/
def printed (lines : List String) : String :=
  unlines (lines.map Text.withoutEscapes)

def rendered (output : OutputStyle) (sites : List CopySite) : Except RenderError String :=
  match output with
  | .text => printed <$> reportLines sites
  | .json => (fun text => unlines [text]) <$> reportText sites

def check [Host] (i : Invocation) (tree : FileTree) (output : OutputStyle) :
    Run (Nat × String) := do
  let (config, exclude) ← i.settings tree
  let packages ← i.packages tree exclude
  let found ← packages.mapM (inspect config)
  let sites := CopySite.sorted found.flatten
  let stdout ← orFail .rendering (rendered output sites)
  pure (if sites.isEmpty then 0 else 2, stdout)

def sizes [Host] (i : Invocation) (tree : FileTree) : Run (Nat × String) := do
  let (config, exclude) ← i.settings tree
  let packages ← i.packages tree exclude
  let rows ← orFail .layout (footprintTable config packages)
  let lines ← orFail (.rendering ∘ .overlongNumber) (rows.mapM FootprintRow.line)
  pure (0, printed lines)

def execute [Host] (i : Invocation) (tree : FileTree) : Run (Nat × String) :=
  match i.command with
  | .check output => i.check tree output
  | .sizes => i.sizes tree

end Invocation

inductive Outcome where
  | exit (code : Nat) (stdout stderr : String)
  | usage (cause : UsageError)
  | crash (cause : Failure)

def usageText : String :=
  "usage: widecopy check|sizes [--max N] [--word-size N] [--max-align N] [--root DIR] " ++
    "[--config FILE] [--package PATTERN] [--format-in json|toml] [--output text|json] " ++
    "[--verbose] PATH..."

def Invocation.outcome [Host] (i : Invocation) (tree : FileTree) : Outcome :=
  let (result, lines) := (i.execute tree).run []
  let logged :=
    if i.verbose then Invocation.unlines (lines.map ("[widecopy] DEBUG " ++ ·)) else ""
  match result with
  | .ok (code, stdout) => .exit code stdout logged
  | .error failure =>
    if failure.escapes then .crash failure
    else .exit 1 "" (logged ++ Invocation.printed [failure.message])

def outcome [Host] (words : List String) (tree : FileTree) : Outcome :=
  match readRequest words with
  | .error cause => .usage cause
  | .ok .help => .exit 0 (usageText ++ "\n") ""
  | .ok (.run i) => i.outcome tree

end CopyLint.CommandLine
