import CopyLint.Proofs.FileText
import CopyLint.Proofs.RunOutcome
import CopyLint.Proofs.TomlText

/-! Faults of the configuration file. All of them are reported to the user but three: a zero character
in the file's path, an integer in the file that is too long to read, and brackets in one another for
which there is no room. -/
namespace CopyLint

open FileTree (hasZero)

namespace Config

def sourceFile (root : Path) (explicit : Option Path) : Path :=
  explicit.getD (root.join fileName)

/-- What nobody reports. -/
inductive Unreported [Host] (tree : FileTree) (path : Path) : Prop where
  | zeroCharacter : hasZero path → Unreported tree path
  | overlongInteger {text : List Char} {n : Nat} : tree.readText path = .ok text →
      Toml.read Host.readingRoom text = .error (.overlongInteger n) → Unreported tree path
  | tooDeep {text : List Char} : tree.readText path = .ok text →
      Toml.read Host.readingRoom text = .error .tooDeep → Unreported tree path

section

variable [Host] {tree : FileTree} {path : Path} {required : Bool}

theorem readFile_of_unreported (h : Unreported tree path) :
    ∃ e, readFile tree required path = .error e ∧ e.escapes := by
  unfold readFile
  cases h with
  | zeroCharacter hzero =>
    rw [FileTree.readText_of_hasZero hzero]
    exact ⟨_, rfl, rfl⟩
  | overlongInteger hread hparse =>
    simp only [hread, hparse]
    exact ⟨_, rfl, rfl⟩
  | tooDeep hread hparse =>
    simp only [hread, hparse]
    exact ⟨_, rfl, rfl⟩

theorem unreported_of_readFile {e : ConfigFileError} (h : readFile tree required path = .error e)
    (hescapes : e.escapes) : Unreported tree path := by
  unfold readFile at h
  split at h
  · split at h
    · cases h
      cases hescapes
    · cases h
  · rename_i cause _ hread
    cases h
    cases cause with
    | zeroCharacter => exact .zeroCharacter (FileTree.hasZero_of_readText hread)
    | _ => cases hescapes
  · rename_i text hread
    split at h
    · cases h
    · cases h
      cases hescapes
    · rename_i hparse
      exact .overlongInteger hread hparse
    · rename_i hparse
      exact .tooDeep hread hparse

end

section

variable [Host] {tree : FileTree} {root : Path} {explicit : Option Path} {e : ConfigFileError}

theorem readSection_of_readFile
    (h : readFile tree explicit.isSome (sourceFile root explicit) = .error e) :
    readSection tree root explicit = .error e := by
  cases explicit with
  | none =>
    have hfile : readFile tree false (root.join fileName) = .error e := h
    simp only [readSection, hfile]
    rfl
  | some path =>
    have hfile : readFile tree true path = .error e := h
    simp only [readSection, hfile]
    rfl

theorem readFile_of_readSection (h : readSection tree root explicit = .error e) :
    readFile tree explicit.isSome (sourceFile root explicit) = .error e ∨ e = .notTable := by
  cases explicit with
  | none =>
    obtain hfile | ⟨entries, -, hshape⟩ := bind_eq_error_iff.mp h
    · exact .inl hfile
    · right
      dsimp only at hshape
      split at hshape <;> cases hshape
      rfl
  | some path =>
    obtain hfile | ⟨entries, -, hshape⟩ := bind_eq_error_iff.mp h
    · exact .inl hfile
    · right
      dsimp only at hshape
      split at hshape <;> cases hshape
      rfl

end

theorem readSection_escapes_iff [Host] (tree : FileTree) (root : Path) (explicit : Option Path) :
    (∃ e, readSection tree root explicit = .error e ∧ e.escapes) ↔
      Unreported tree (sourceFile root explicit) := by
  constructor
  · rintro ⟨e, h, hescapes⟩
    obtain hfile | rfl := readFile_of_readSection h
    · exact unreported_of_readFile hfile hescapes
    · cases hescapes
  · intro h
    obtain ⟨e, hfile, hescapes⟩ := readFile_of_unreported h
    exact ⟨e, readSection_of_readFile hfile, hescapes⟩

def plainFile (text : List Char) : FileTree :=
  .folder [(fileName, .plain text)]

theorem readText_plainFile {text : List Char} (h : text.all Text.isPlain) :
    (plainFile text).readText (sourceFile {} none) = .ok text :=
  FileTree.readText_plain h rfl rfl

def longInteger (n : Nat) : FileTree :=
  plainFile ('a' :: '=' :: List.replicate n '1')

theorem readSection_longInteger [Host] {n : Nat} (h : Digits.limit < n) :
    readSection (longInteger n) {} none = .error (.overlongInteger n) := by
  have hnumeral : Toml.IsNumeral (List.replicate n '1') := by
    constructor
    · exact mt (List.replicate_eq_nil_iff '1').mp (Nat.ne_of_gt (Nat.zero_lt_of_lt h))
    · intro c hc
      rw [List.eq_of_mem_replicate hc]
      rfl
    · rw [List.head?_replicate]
      split <;> decide
  have hplain : ('a' :: '=' :: List.replicate n '1').all Text.isPlain := by
    rw [List.all_cons, List.all_cons, List.all_replicate]
    split <;> decide
  have hbare : Toml.IsBare ['a'] := ⟨List.cons_ne_nil 'a' [], List.forall_mem_singleton.mpr rfl⟩
  have hread := hbare.read_numeral Host.readingRoom hnumeral
  rw [List.singleton_append, List.length_replicate, if_pos h] at hread
  apply readSection_of_readFile
  change readFile (plainFile _) false (sourceFile {} none) = _
  rw [readFile, readText_plainFile hplain]
  simp only [hread]
  rfl

def numberFile : FileTree :=
  plainFile ("widecopy".toList ++ ['=', '1'])

theorem readSection_numberFile [Host] : readSection numberFile {} none = .error .notTable := by
  have hbare : Toml.IsBare "widecopy".toList := ⟨by decide, List.all_eq_true.mp (by decide)⟩
  have hnumeral : Toml.IsNumeral ['1'] := ⟨by decide, List.all_eq_true.mp (by decide), by decide⟩
  have hread := hbare.read_numeral Host.readingRoom hnumeral
  have hfile : readFile numberFile false (sourceFile {} none) =
      .ok [(String.ofList "widecopy".toList, .int (Digits.value ['1']))] := by
    rw [readFile, numberFile, readText_plainFile (by decide)]
    simp only [hread]
    rfl
  change readFile numberFile false (sourceFile {} none) >>= _ = _
  rw [hfile, String.ofList_toList]
  rfl

end Config

namespace CommandLine

namespace Run

variable {α β : Type} {r : Run α} {f : α → Run β}

def Silent (r : Run α) (result : Except Failure α) : Prop :=
  ∀ lines, r.run lines = (result, lines)

theorem silent_orFail {ε : Type} (wrap : ε → Failure) (x : Except ε α) :
    Silent (orFail wrap x) (x.mapError wrap) := by
  intro lines
  cases x <;> rfl

theorem Silent.bind {x : Except Failure α} {g : α → Except Failure β} (h : Silent r x)
    (hf : ∀ a, x = .ok a → Silent (f a) (g a)) : Silent (r >>= f) (x >>= g) := by
  intro lines
  rw [ExceptT.run_bind]
  simp only [Bind.bind, StateT.bind]
  rw [h lines]
  cases x with
  | error failure => rfl
  | ok a => exact hf a rfl lines

theorem Silent.bind_error {failure : Failure} (h : Silent r (.error failure)) :
    Silent (r >>= f) (.error failure) :=
  h.bind (g := fun _ => .error failure) nofun

end Run

open Run

theorem Invocation.silent_settings [Host] (i : Invocation) (tree : FileTree) :
    Silent (i.settings tree) (i.configured tree) := by
  apply (silent_orFail _ _).bind
  intro defaults _
  apply (silent_orFail _ _).bind
  intro config _ lines
  rfl

theorem Invocation.configured_of_readSection [Host] {i : Invocation} {tree : FileTree}
    {e : ConfigFileError} (h : Config.readSection tree i.root i.configFile = .error e) :
    i.configured tree = .error (.configFile e) := by
  rw [configured, h]
  rfl

theorem Invocation.configured_of_ofSection [Host] {i : Invocation} {tree : FileTree}
    {entries : Config.Section} {e : Config.NotPositive}
    (hsection : Config.readSection tree i.root i.configFile = .ok entries)
    (h : Config.ofSection (Config.override i.options entries) = .error e) :
    i.configured tree = .error (.config e) := by
  rw [configured, hsection]
  change (Config.ofSection (Config.override i.options entries)).mapError Failure.config >>= _ = _
  rw [h]
  rfl

theorem Invocation.silent_execute [Host] {i : Invocation} {tree : FileTree} {failure : Failure}
    (h : i.configured tree = .error failure) : Silent (i.execute tree) (.error failure) := by
  have hsettings := i.silent_settings tree
  rw [h] at hsettings
  unfold execute
  split
  · exact hsettings.bind_error
  · exact hsettings.bind_error

theorem outcome_of_configured [Host] {words : List String} {i : Invocation} {tree : FileTree}
    {failure : Failure} (hwords : readRequest words = .ok (.run i))
    (h : i.configured tree = .error failure) :
    outcome words tree = if failure.escapes then .crash failure
      else .exit 1 "" (Text.withoutEscapes failure.message ++ "\n") := by
  have hlog : (if i.verbose then Invocation.unlines [] else "") = "" := by
    split <;> rfl
  simp only [outcome, hwords, Invocation.outcome, Invocation.silent_execute h [], List.map_nil,
    hlog, printed_singleton, String.empty_append]

/-- All faults of the configuration file are reported but three. Of these, the integer that is too
long stands in the file with all its digits in a row, and every entry of that many digits is such a
fault; and the brackets for which there is no room stand in the file, and arrays in one another are
such a fault if there are too many of them. A fault that is reported ends the run with status 1 and
its message, before anything else is printed. So does a value that is not a positive number, unless
it holds a number too long to show or more in one another than there is room for to show it. -/
theorem config_faults_are_reported_but_three [Host] (tree : FileTree) :
    (∀ root explicit, (∃ e, Config.readSection tree root explicit = .error e ∧ e.escapes) ↔
      Config.Unreported tree (Config.sourceFile root explicit)) ∧
    (∀ text n, Toml.read Host.readingRoom text = .error (.overlongInteger n) →
      Digits.limit < n ∧ Toml.Spells text n) ∧
    (∀ text, Toml.read Host.readingRoom text = .error .tooDeep →
      Host.readingRoom < 3 * text.countP Toml.isBracket) ∧
    (∀ part digits, Toml.IsBare part → Toml.IsNumeral digits →
      Toml.read Host.readingRoom (part ++ '=' :: digits) =
        if Digits.limit < digits.length then .error (.overlongInteger digits.length)
        else .ok [(String.ofList part, .int (Digits.value digits))]) ∧
    (∀ part n, Toml.IsBare part →
      Toml.read Host.readingRoom (part ++ '=' :: Toml.nestedText n) =
        if Host.readingRoom < 2 * (n + 1) then .error .tooDeep
        else .ok [(String.ofList part, Toml.nested n)]) ∧
    ∀ words i, readRequest words = .ok (.run i) →
      (∀ e, Config.readSection tree i.root i.configFile = .error e →
        outcome words tree = if e.escapes then .crash (.configFile e)
          else .exit 1 "" (Text.withoutEscapes e.message ++ "\n")) ∧
      ∀ entries e, Config.readSection tree i.root i.configFile = .ok entries →
        Config.ofSection (Config.override i.options entries) = .error e →
        outcome words tree =
          if e.value.hasOverlong || Host.showingRoom < e.value.depth then .crash (.config e)
          else .exit 1 "" (Text.withoutEscapes e.message ++ "\n") := by
  refine ⟨Config.readSection_escapes_iff tree, fun _ _ => Toml.spells_of_read,
    fun _ => Toml.brackets_of_read, fun _ _ hpart hdigits => hpart.read_numeral _ hdigits,
    fun _ n hpart => hpart.read_nested _ n, ?_⟩
  intro words i hwords
  constructor
  · intro e hsection
    exact outcome_of_configured hwords (Invocation.configured_of_readSection hsection)
  · intro entries e hsection hvalue
    exact outcome_of_configured hwords (Invocation.configured_of_ofSection hsection hvalue)

theorem config_faults_are_reported_but_three_plain :
    Toml.read Host.readingRoom ('a' :: '=' :: Toml.nestedText 500) = .error .tooDeep ∧
    outcome ["check", "g.json"] Config.numberFile =
      .exit 1 "" "[widecopy] must be a table\n" ∧
    outcome ["check", "--max", "0", "g.json"] (.folder []) =
      .exit 1 "" "max_width must be a positive integer, got 0\n" ∧
    outcome ["sizes", "--config", "lost.toml", "g.json"] (.folder []) =
      .exit 1 "" "config file lost.toml does not exist\n" := by
  let i : Invocation := { command := .check .text, paths := [.ofString "g.json"] }
  let lost : Path := .ofString "lost.toml"
  have hcheck : readRequest ["check", "g.json"] = .ok (.run i) := by decide +kernel
  have hzero : readRequest ["check", "--max", "0", "g.json"] =
      .ok (.run { i with maxWidth := some 0 }) := by decide +kernel
  have hlost : readRequest ["sizes", "--config", "lost.toml", "g.json"] =
      .ok (.run { i with command := .sizes, configFile := some lost }) := by decide +kernel
  have hbare : Toml.IsBare ['a'] := ⟨List.cons_ne_nil 'a' [], List.forall_mem_singleton.mpr rfl⟩
  refine ⟨?_, ?_, ?_, ?_⟩
  · exact ((config_faults_are_reported_but_three (.folder [])).2.2.2.2.1 _ 500 hbare).trans
      (if_pos (by decide))
  · rw [((config_faults_are_reported_but_three _).2.2.2.2.2 _ _ hcheck).1 _
      Config.readSection_numberFile]
    rfl
  · have hsection : Config.readSection (.folder []) {} none = .ok [] := rfl
    rw [((config_faults_are_reported_but_three _).2.2.2.2.2 _ _ hzero).2 _ ⟨"max_width", .int 0⟩
      hsection rfl]
    rfl
  · have hsection : Config.readSection (.folder []) {} (some lost) =
        .error (.missing "lost.toml") := rfl
    rw [((config_faults_are_reported_but_three _).2.2.2.2.2 _ _ hlost).1 _ hsection]
    rfl

/-- One digit more than the limit ends the run without a report. -/
theorem long_integer_is_not_reported :
    Config.readSection (Config.longInteger 4301) {} none = .error (.overlongInteger 4301) ∧
    outcome ["check", "g.json"] (Config.longInteger 4301) =
      .crash (.configFile (.overlongInteger 4301)) := by
  let i : Invocation := { command := .check .text, paths := [.ofString "g.json"] }
  have hwords : readRequest ["check", "g.json"] = .ok (.run i) := by decide +kernel
  have hsection := Config.readSection_longInteger (n := 4301) (by decide)
  have hconfigured := Invocation.configured_of_readSection (i := i) hsection
  exact ⟨hsection, outcome_of_configured hwords hconfigured⟩

end CommandLine

end CopyLint
