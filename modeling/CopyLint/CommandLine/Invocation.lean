import CopyLint.Files.Path
import CopyLint.Host

/-! What the words on the command line ask for. Options and paths mix freely, and of an option given
twice the last counts. -/
namespace CopyLint.CommandLine

inductive OutputStyle where
  | text
  | json
  deriving DecidableEq, Repr

inductive Command where
  | check (output : OutputStyle)
  | sizes
  deriving DecidableEq, Repr

structure Invocation where
  command : Command
  paths : List Path
  maxWidth : Option Int := none
  wordSize : Option Int := none
  maxAlign : Option Int := none
  root : Path := {}
  configFile : Option Path := none
  package : Option String := none
  format : Option String := none
  verbose : Bool := false
  deriving DecidableEq, Repr

inductive UsageError where
  | noCommand
  | unknownCommand (name : String)
  | unknownOption (name : String)
  | missingValue (option : String)
  | unexpectedValue (option : String)
  | notInteger (option value : String)
  | unknownOutput (value : String)
  | noPaths
  deriving DecidableEq, Repr

def UsageError.message : UsageError → String
  | noCommand => "a command is missing: check or sizes"
  | unknownCommand name => s!"no such command: {name}"
  | unknownOption name => s!"no such option: {name}"
  | missingValue option => s!"option {option} needs a value"
  | unexpectedValue option => s!"option {option} takes no value"
  | notInteger option value => s!"option {option}: {value} is not an integer"
  | unknownOutput value => s!"option --output: {value} is neither text nor json"
  | noPaths => "a path is missing"

structure Arguments where
  values : List (String × String) := []
  verbose : Bool := false
  help : Bool := false
  paths : List String := []
  deriving DecidableEq, Repr

def commonOptions : List String :=
  ["--max", "--word-size", "--max-align", "--root", "--config", "--package", "--format-in"]

def splitOption (word : String) : String × Option String :=
  let name := word.toList.takeWhile (· ≠ '=')
  match word.toList.dropWhile (· ≠ '=') with
  | [] => (word, none)
  | _ :: value => (String.ofList name, some (String.ofList value))

inductive Word where
  | stop
  | verbose
  | help
  | option (name : String) (attached : Option String)
  | path
  deriving DecidableEq, Repr

def Word.read (options : List String) (word : String) : Except UsageError Word :=
  match word.toList with
  | ['-', '-'] => pure stop
  | '-' :: '-' :: _ =>
    let (name, attached) := splitOption word
    if name = "--verbose" || name = "--help" then
      if attached.isSome then throw (.unexpectedValue name)
      else pure (if name = "--verbose" then verbose else help)
    else if options.contains name then pure (option name attached)
    else throw (.unknownOption name)
  | '-' :: flags =>
    if flags = [] then pure path
    else if flags.all (· = 'v') then pure verbose
    else throw (.unknownOption word)
  | _ => pure path

namespace Arguments

/-- The word after an option is its value, whatever it looks like. -/
def collect (options : List String) (a : Arguments) : List String → Except UsageError Arguments
  | [] => pure a
  | word :: rest => do
    match ← Word.read options word with
    | .stop => pure { a with paths := a.paths ++ rest }
    | .verbose => collect options { a with verbose := true } rest
    | .help => collect options { a with help := true } rest
    | .option name (some value) =>
      collect options { a with values := (name, value) :: a.values } rest
    | .option name none =>
      match rest with
      | value :: rest => collect options { a with values := (name, value) :: a.values } rest
      | [] => throw (.missingValue name)
    | .path => collect options { a with paths := a.paths ++ [word] } rest

def get? (a : Arguments) (option : String) : Option String :=
  a.values.lookup option

def integer? [Host] (a : Arguments) (option : String) : Except UsageError (Option Int) :=
  match a.get? option with
  | none => pure none
  | some value =>
    match Host.number value with
    | some n => pure (some n)
    | none => throw (.notInteger option value)

def output (a : Arguments) : Except UsageError OutputStyle :=
  match a.get? "--output" with
  | none | some "text" => pure .text
  | some "json" => pure .json
  | some value => throw (.unknownOutput value)

def toInvocation [Host] (a : Arguments) (command : Command) :
    Except UsageError Invocation := do
  let maxWidth ← a.integer? "--max"
  let wordSize ← a.integer? "--word-size"
  let maxAlign ← a.integer? "--max-align"
  if a.paths = [] then throw .noPaths
  pure {
    command, maxWidth, wordSize, maxAlign
    paths := a.paths.map Path.ofString
    root := ((a.get? "--root").map Path.ofString).getD {}
    configFile := (a.get? "--config").map Path.ofString
    package := a.get? "--package"
    format := a.get? "--format-in"
    verbose := a.verbose }

end Arguments

inductive Request where
  | help
  | run (invocation : Invocation)
  deriving DecidableEq, Repr

def readCommand [Host] (name : String) (words : List String) :
    Except UsageError Request :=
  if name = "check" then do
    let a ← Arguments.collect ("--output" :: commonOptions) {} words
    if a.help then pure .help else do
      let output ← a.output
      let invocation ← a.toInvocation (.check output)
      pure (.run invocation)
  else if name = "sizes" then do
    let a ← Arguments.collect commonOptions {} words
    if a.help then pure .help else do
      let invocation ← a.toInvocation .sizes
      pure (.run invocation)
  else throw (.unknownCommand name)

/-- Whether help is asked for before the command, and the words from the command on. No other
option may stand there. -/
def beforeCommand (help : Bool) : List String → Except UsageError (Bool × List String)
  | [] => pure (help, [])
  | word :: rest =>
    match word.toList with
    | ['-', '-'] => pure (help, rest)
    | '-' :: _ :: _ =>
      if word = "--help" then beforeCommand true rest else throw (.unknownOption word)
    | _ => pure (help, word :: rest)

def readRequest [Host] (words : List String) : Except UsageError Request := do
  let (help, words) ← beforeCommand false words
  if help then pure .help
  else
    match words with
    | [] => throw .noCommand
    | name :: rest => readCommand name rest

end CopyLint.CommandLine
