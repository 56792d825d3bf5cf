import CopyLint.CommandLine.Run
import CopyLint.Proofs.CommandWords
import CopyLint.Proofs.FileText
import CopyLint.Proofs.PackageOrder
import CopyLint.Proofs.PackageSizes

/-! How runs end. A run is what its stages do without a log, and the log shows only on the error
output. -/
namespace CopyLint.CommandLine

namespace Run

variable {α β : Type}

/-- The run ends with this result, whatever was logged before. -/
def EndsWith (r : Run α) (result : Except Failure α) : Prop :=
  ∀ lines, (r.run lines).1 = result

theorem endsWith_pure (a : α) : EndsWith (pure a) (.ok a) :=
  fun _ => rfl

theorem endsWith_orFail {ε : Type} (wrap : ε → Failure) (x : Except ε α) :
    EndsWith (orFail wrap x) (x.mapError wrap) := by
  intro lines
  cases x <;> rfl

theorem EndsWith.bind {r : Run α} {x : Except Failure α} {f : α → Run β} {g : α → Except Failure β}
    (h : EndsWith r x) (hf : ∀ a, x = .ok a → EndsWith (f a) (g a)) :
    EndsWith (r >>= f) (x >>= g) := by
  intro lines
  cases hrun : r.run lines with
  | mk answer later =>
    have hanswer : answer = x := by simpa [hrun] using h lines
    subst hanswer
    rw [ExceptT.run_bind]
    simp only [Bind.bind, StateT.bind]
    rw [hrun]
    cases answer with
    | error failure => rfl
    | ok a => exact hf a rfl later

theorem EndsWith.bind_ok {r : Run α} {a : α} {f : α → Run β} {y : Except Failure β}
    (h : EndsWith r (.ok a)) (hf : EndsWith (f a) y) : EndsWith (r >>= f) y := by
  have hbind : EndsWith (r >>= f) (Except.ok a >>= fun _ => y) := by
    apply h.bind
    rintro _ ⟨⟩
    exact hf
  exact hbind

theorem EndsWith.after_log {r : Run α} {x : Except Failure α} (h : EndsWith r x) (line : String) :
    EndsWith (do log line; r) x :=
  fun lines => h (lines ++ [line])

theorem endsWith_mapM {f : α → Run β} {g : α → Except Failure β} {as : List α}
    (h : ∀ a ∈ as, EndsWith (f a) (g a)) : EndsWith (as.mapM f) (as.mapM g) := by
  induction as with
  | nil => exact endsWith_pure []
  | cons a rest ih =>
    obtain ⟨hfirst, hrest⟩ := List.forall_mem_cons.mp h
    rw [List.mapM_cons, List.mapM_cons]
    apply hfirst.bind
    intro b _
    apply (ih hrest).bind
    intro bs _
    exact endsWith_pure _

end Run

namespace Invocation

def configured [Host] (i : Invocation) (tree : FileTree) :
    Except Failure (Config × List String) := do
  let defaults ← (Config.readSection tree i.root i.configFile).mapError .configFile
  let merged := Config.override i.options defaults
  let config ← (Config.ofSection merged).mapError .config
  pure (config, Config.excluded merged)

def selected [Host] (i : Invocation) (tree : FileTree) (exclude : List String) :
    Except Failure (List Package) := do
  let format ← (Format.choose i.format Format.json.name i.paths).mapError .format
  let files ← (format.discover exclude tree i.paths).mapError .discovery
  let loaded ← files.mapM fun path => (format.loadDocument tree path).mapError .document
  (selectPackages i.package loaded.flatten).mapError .selection

/-- All that comes before the analysis. -/
def prepared [Host] (i : Invocation) (tree : FileTree) :
    Except Failure (Config × List Package) := do
  let (config, exclude) ← i.configured tree
  let packages ← i.selected tree exclude
  pure (config, packages)

open Run

theorem endsWith_settings [Host] (i : Invocation) (tree : FileTree) :
    EndsWith (i.settings tree) (i.configured tree) := by
  apply (endsWith_orFail _ _).bind
  intro defaults _
  apply (endsWith_orFail _ _).bind
  intro config _
  exact endsWith_pure _

theorem endsWith_loadDocument [Host] (tree : FileTree) (format : Format) (path : Path) :
    EndsWith (loadDocument tree format path)
      ((format.loadDocument tree path).mapError .document) := by
  have hrun : EndsWith (loadDocument tree format path)
      ((format.loadDocument tree path).mapError .document >>= pure) := by
    apply (endsWith_orFail _ _).bind
    intro packages _
    exact (endsWith_pure packages).after_log _
  rwa [bind_pure] at hrun

theorem endsWith_packages [Host] (i : Invocation) (tree : FileTree) (exclude : List String) :
    EndsWith (i.packages tree exclude) (i.selected tree exclude) := by
  apply (endsWith_orFail _ _).bind
  intro format _
  apply (endsWith_orFail _ _).bind
  intro files _
  apply EndsWith.after_log
  apply (endsWith_mapM fun path _ => endsWith_loadDocument tree format path).bind
  intro loaded _
  exact endsWith_orFail _ _

theorem sound_of_selected [Host] {i : Invocation} {tree : FileTree} {exclude : List String}
    {packages : List Package} (h : i.selected tree exclude = .ok packages) :
    ∀ p ∈ packages, p.Sound := by
  unfold selected at h
  obtain ⟨format, -, h⟩ := bind_eq_ok_iff.mp h
  obtain ⟨files, -, h⟩ := bind_eq_ok_iff.mp h
  obtain ⟨loaded, hloaded, h⟩ := bind_eq_ok_iff.mp h
  rw [mapError_eq_ok_iff] at h
  intro p hp
  rw [selectPackages_eq_ok h, List.mem_filter] at hp
  obtain ⟨document, hdocument, hp⟩ := List.mem_flatten.mp hp.1
  obtain ⟨path, -, hpath⟩ := exists_mem_of_mapM_eq_ok hloaded hdocument
  rw [mapError_eq_ok_iff, Format.loadDocument] at hpath
  obtain ⟨text, -, hpath⟩ := bind_eq_ok_iff.mp hpath
  obtain ⟨value, -, hpath⟩ := bind_eq_ok_iff.mp hpath
  exact sound_of_loadPackages (mapError_eq_ok_iff.mp hpath) hp

theorem sound_of_prepared [Host] {i : Invocation} {tree : FileTree} {config : Config}
    {packages : List Package} (h : i.prepared tree = .ok (config, packages)) :
    ∀ p ∈ packages, p.Sound := by
  obtain ⟨settings, -, h⟩ := bind_eq_ok_iff.mp h
  obtain ⟨selection, hselection, h⟩ := bind_eq_ok_iff.mp h
  cases h
  exact sound_of_selected hselection

def concluded (config : Config) (packages : List Package) :
    Command → Except Failure (Nat × String)
  | .check output => do
    let analysis ← (analyze config packages).mapError .layout
    let stdout ← (rendered output analysis.sites).mapError .rendering
    pure (if analysis.sites.isEmpty then 0 else 2, stdout)
  | .sizes => do
    let rows ← (footprintTable config packages).mapError .layout
    let lines ← (rows.mapM FootprintRow.line).mapError (.rendering ∘ .overlongNumber)
    pure (0, printed lines)

theorem endsWith_inspect (config : Config) {p : Package} (h : p.Sound) :
    EndsWith (inspect config p) (.ok (p.sites config)) := by
  unfold inspect
  rw [h.inspect_eq config]
  exact (endsWith_orFail _ _).bind_ok ((endsWith_pure _).after_log _)

theorem endsWith_check [Host] (i : Invocation) (tree : FileTree) (output : OutputStyle) :
    EndsWith (i.check tree output) (do
      let (config, packages) ← i.prepared tree
      concluded config packages (.check output)) := by
  simp only [prepared, bind_assoc, pure_bind]
  apply (endsWith_settings i tree).bind
  intro (config, exclude) _
  apply (endsWith_packages i tree exclude).bind
  intro packages hpackages
  have hsound := sound_of_selected hpackages
  have hfound : EndsWith (packages.mapM (inspect config))
      (.ok (packages.map (Package.sites config))) := by
    have hrun := endsWith_mapM fun p hp => endsWith_inspect config (hsound p hp)
    rwa [mapM_eq_ok_map fun _ _ => rfl] at hrun
  apply hfound.bind_ok
  rw [concluded, analyze_eq hsound, ← List.flatMap_def]
  apply (endsWith_orFail _ _).bind
  intro stdout _
  exact endsWith_pure _

theorem endsWith_sizes [Host] (i : Invocation) (tree : FileTree) :
    EndsWith (i.sizes tree) (do
      let (config, packages) ← i.prepared tree
      concluded config packages .sizes) := by
  simp only [prepared, bind_assoc, pure_bind]
  apply (endsWith_settings i tree).bind
  intro (config, exclude) _
  apply (endsWith_packages i tree exclude).bind
  intro packages _
  apply (endsWith_orFail _ _).bind
  intro rows _
  apply (endsWith_orFail _ _).bind
  intro lines _
  exact endsWith_pure _

/-- The result of a run, without its log. -/
def result [Host] (i : Invocation) (tree : FileTree) : Except Failure (Nat × String) := do
  let (config, packages) ← i.prepared tree
  concluded config packages i.command

section

variable [Host] {i : Invocation} {tree : FileTree}

theorem result_of_error {failure : Failure} (h : i.prepared tree = .error failure) :
    i.result tree = .error failure := by
  rw [result, h]
  rfl

variable {config : Config} {packages : List Package}
  (h : i.prepared tree = .ok (config, packages))

include h

theorem result_of_ok : i.result tree = concluded config packages i.command := by
  rw [result, h]
  rfl

theorem result_of_check {output : OutputStyle} (hcommand : i.command = .check output) :
    ∃ analysis, analyze config packages = .ok analysis ∧
      CopySite.sorted analysis.sites = analysis.sites ∧
      i.result tree = (fun stdout => (if analysis.sites.isEmpty then 0 else 2, stdout)) <$>
        (rendered output analysis.sites).mapError .rendering := by
  have hanalysis := analyze_eq (sound_of_prepared h) config
  refine ⟨_, hanalysis, CopySite.sorted_sorted _, ?_⟩
  rw [result_of_ok h, hcommand, concluded, hanalysis]
  rfl

theorem result_of_sizes (hcommand : i.command = .sizes) :
    ∃ rows, footprintTable config packages = .ok rows ∧
      rows.length = (packages.flatMap (·.types)).length ∧
      i.result tree = (fun lines => (0, printed lines)) <$>
        (rows.mapM FootprintRow.line).mapError (.rendering ∘ .overlongNumber) := by
  have hrows := footprintTable_eq (sound_of_prepared h) config
  refine ⟨_, hrows, ?_, ?_⟩
  · simp [List.length_mergeSort, List.length_flatMap, Package.rows]
  · rw [result_of_ok h, hcommand, concluded, hrows]
    rfl

end

theorem endsWith_execute [Host] (i : Invocation) (tree : FileTree) :
    EndsWith (i.execute tree) (i.result tree) := by
  unfold execute result
  cases i.command with
  | check output => exact endsWith_check i tree output
  | sizes => exact endsWith_sizes i tree

end Invocation

namespace Outcome

def ofResult [Host] (logged : String) : Except Failure (Nat × String) → Outcome
  | .ok (code, stdout) => .exit code stdout logged
  | .error failure =>
    if failure.escapes then .crash failure
    else .exit 1 "" (logged ++ Invocation.printed [failure.message])

def quiet : Outcome → Outcome
  | .exit code stdout _ => .exit code stdout ""
  | o => o

theorem quiet_ofResult [Host] (logged other : String) (result : Except Failure (Nat × String)) :
    (ofResult logged result).quiet = (ofResult other result).quiet := by
  cases result with
  | ok shown => rfl
  | error failure =>
    simp only [ofResult]
    split <;> rfl

end Outcome

/-- What a run may log: nothing, unless it is verbose. -/
def Invocation.MayLog (i : Invocation) (logged : String) : Prop :=
  i.verbose = false → logged = ""

theorem exists_outcome_eq_ofResult [Host] {words : List String} {i : Invocation}
    (h : readRequest words = .ok (.run i)) (tree : FileTree) : ∃ logged, i.MayLog logged ∧
      outcome words tree = .ofResult logged (i.result tree) := by
  refine ⟨if i.verbose then Invocation.unlines
    (((i.execute tree).run []).2.map ("[widecopy] DEBUG " ++ ·)) else "", ?_, ?_⟩
  · intro hquiet
    simp [hquiet]
  · simp only [outcome, h, Invocation.outcome, ← i.endsWith_execute tree []]
    rfl

/-- How a run ends, in terms of what comes before the analysis: once packages are selected, the
analysis cannot fail. -/
structure Invocation.Contract [Host] (i : Invocation) (tree : FileTree) (o : Outcome) : Prop where
  exit_one_iff : (∃ stdout stderr, o = .exit 1 stdout stderr) ↔
    ∃ failure, i.prepared tree = .error failure ∧ failure.escapes = false
  failed : ∀ failure, i.prepared tree = .error failure →
    if failure.escapes then o = .crash failure
    else ∃ logged, i.MayLog logged ∧
      o = .exit 1 "" (logged ++ Text.withoutEscapes failure.message ++ "\n")
  checked : ∀ output config packages, i.command = .check output →
    i.prepared tree = .ok (config, packages) → ∃ analysis, analyze config packages = .ok analysis ∧
      (output = .text →
        rendered output analysis.sites = printed <$> analysis.sites.mapM CopySite.line) ∧
      match rendered output analysis.sites with
      | .ok stdout => ∃ logged, i.MayLog logged ∧
          o = .exit (if analysis.sites = [] then 0 else 2) stdout logged
      | .error cause => o = .crash (.rendering cause)
  sized : ∀ config packages, i.command = .sizes →
    i.prepared tree = .ok (config, packages) → ∃ rows, footprintTable config packages = .ok rows ∧
      rows.length = (packages.flatMap (·.types)).length ∧
      match rows.mapM FootprintRow.line with
      | .ok lines => ∃ logged, i.MayLog logged ∧ o = .exit 0 (printed lines) logged
      | .error cause => o = .crash (.rendering (.overlongNumber cause))

theorem printed_singleton (line : String) :
    Invocation.printed [line] = Text.withoutEscapes line ++ "\n" := by
  simp [Invocation.printed, Invocation.unlines, String.join]

section

variable [Host] {i : Invocation} {tree : FileTree} {config : Config} {packages : List Package}
  (logged : String)

theorem ofResult_of_check (h : i.prepared tree = .ok (config, packages)) {output : OutputStyle}
    (hcommand : i.command = .check output) : ∃ analysis, analyze config packages = .ok analysis ∧
      CopySite.sorted analysis.sites = analysis.sites ∧
      match Invocation.rendered output analysis.sites with
      | .ok stdout => Outcome.ofResult logged (i.result tree) =
          .exit (if analysis.sites = [] then 0 else 2) stdout logged
      | .error cause => Outcome.ofResult logged (i.result tree) = .crash (.rendering cause) := by
  obtain ⟨analysis, hanalysis, hsorted, hresult⟩ := Invocation.result_of_check h hcommand
  refine ⟨analysis, hanalysis, hsorted, ?_⟩
  rw [hresult]
  cases Invocation.rendered output analysis.sites with
  | error cause => rfl
  | ok stdout =>
    simp only [List.isEmpty_iff]
    rfl

theorem ofResult_of_sizes (h : i.prepared tree = .ok (config, packages))
    (hcommand : i.command = .sizes) : ∃ rows, footprintTable config packages = .ok rows ∧
      rows.length = (packages.flatMap (·.types)).length ∧
      match rows.mapM FootprintRow.line with
      | .ok lines => Outcome.ofResult logged (i.result tree) =
          .exit 0 (Invocation.printed lines) logged
      | .error cause => Outcome.ofResult logged (i.result tree) =
          .crash (.rendering (.overlongNumber cause)) := by
  obtain ⟨rows, hrows, hlength, hresult⟩ := Invocation.result_of_sizes h hcommand
  refine ⟨rows, hrows, hlength, ?_⟩
  rw [hresult]
  cases rows.mapM FootprintRow.line <;> rfl

theorem ofResult_of_ok (h : i.prepared tree = .ok (config, packages)) :
    (∃ code stdout, code ≠ 1 ∧ Outcome.ofResult logged (i.result tree) = .exit code stdout logged) ∨
      ∃ failure, Outcome.ofResult logged (i.result tree) = .crash failure := by
  cases hcommand : i.command with
  | check output =>
    obtain ⟨analysis, -, -, hends⟩ := ofResult_of_check logged h hcommand
    split at hends
    · exact .inl ⟨_, _, by split <;> decide, hends⟩
    · exact .inr ⟨_, hends⟩
  | sizes =>
    obtain ⟨rows, -, -, hends⟩ := ofResult_of_sizes logged h hcommand
    split at hends
    · exact .inl ⟨0, _, by decide, hends⟩
    · exact .inr ⟨_, hends⟩

theorem ofResult_of_error {failure : Failure} (h : i.prepared tree = .error failure) :
    Outcome.ofResult logged (i.result tree) = if failure.escapes then .crash failure
      else .exit 1 "" (logged ++ Text.withoutEscapes failure.message ++ "\n") := by
  rw [Invocation.result_of_error h, Outcome.ofResult, printed_singleton, String.append_assoc]

/-- What stands on the error output depends on what comes before the analysis only. -/
theorem stderr_ofResult {code : Nat} {stdout stderr : String}
    (h : Outcome.ofResult logged (i.result tree) = .exit code stdout stderr) :
    stderr = match i.prepared tree with
      | .error failure => logged ++ Text.withoutEscapes failure.message ++ "\n"
      | .ok _ => logged := by
  cases hprepared : i.prepared tree with
  | error failure =>
    rw [ofResult_of_error logged hprepared] at h
    split at h
    · cases h
    · cases h
      rfl
  | ok request =>
    obtain ⟨code, stdout, -, hends⟩ | ⟨failure, hends⟩ := ofResult_of_ok logged hprepared
    · cases hends.symm.trans h
      rfl
    · cases hends.symm.trans h

theorem contract_ofResult (hlogged : i.MayLog logged) :
    i.Contract tree (.ofResult logged (i.result tree)) where
  exit_one_iff := by
    cases hprepared : i.prepared tree with
    | error failure =>
      rw [ofResult_of_error logged hprepared]
      cases hescapes : failure.escapes <;> simp [hescapes]
    | ok request =>
      obtain ⟨code, stdout, hcode, hends⟩ | ⟨failure, hends⟩ := ofResult_of_ok logged hprepared
      · simp [hends, hcode]
      · simp [hends]
  failed := by
    intro failure hprepared
    rw [ofResult_of_error logged hprepared]
    split
    · rfl
    · exact ⟨logged, hlogged, rfl⟩
  checked := by
    intro output config packages hcommand hprepared
    obtain ⟨analysis, hanalysis, hsorted, hends⟩ := ofResult_of_check logged hprepared hcommand
    refine ⟨analysis, hanalysis, ?_, ?_⟩
    · rintro rfl
      rw [Invocation.rendered, reportLines, hsorted]
    · split at hends
      · exact ⟨logged, hlogged, hends⟩
      · exact hends
  sized := by
    intro config packages hcommand hprepared
    obtain ⟨rows, hrows, hlength, hends⟩ := ofResult_of_sizes logged hprepared hcommand
    refine ⟨rows, hrows, hlength, ?_⟩
    split at hends
    · exact ⟨logged, hlogged, hends⟩
    · exact hends

end

/-- A run ends as its contract says. Words that ask for the other command fail with it, and in the
same way; words that ask for a verbose run end it as before. -/
theorem runs_keep_their_contract [Host] (tree : FileTree) {words : List String} {i : Invocation}
    (h : readRequest words = .ok (.run i)) :
    i.Contract tree (outcome words tree) ∧
    (∀ command other, readRequest other = .ok (.run { i with command := command }) →
      ((∃ stdout stderr, outcome other tree = .exit 1 stdout stderr) ↔
        ∃ stdout stderr, outcome words tree = .exit 1 stdout stderr) ∧
      (i.verbose = false → ∀ code stdout stderr code' stdout' stderr',
        outcome words tree = .exit code stdout stderr →
        outcome other tree = .exit code' stdout' stderr' → stderr' = stderr)) ∧
    (∀ rest, words = "sizes" :: rest →
      readRequest ("check" :: rest) = .ok (.run { i with command := .check .text })) ∧
    (∀ verbose other, readRequest other = .ok (.run { i with verbose := verbose }) →
      (outcome other tree).quiet = (outcome words tree).quiet) ∧
    ∀ name rest, words = name :: rest → name = "check" ∨ name = "sizes" →
      readRequest (name :: "--verbose" :: rest) = .ok (.run { i with verbose := true }) := by
  obtain ⟨logged, hlogged, houtcome⟩ := exists_outcome_eq_ofResult h tree
  have hcontract : i.Contract tree (outcome words tree) :=
    houtcome ▸ contract_ofResult logged hlogged
  refine ⟨hcontract, ?_, ?_, ?_, ?_⟩
  · intro command other hother
    obtain ⟨logged', hlogged', houtcome'⟩ := exists_outcome_eq_ofResult hother tree
    have hcontract' : ({ i with command := command } : Invocation).Contract tree
        (outcome other tree) := houtcome' ▸ contract_ofResult logged' hlogged'
    refine ⟨hcontract'.exit_one_iff.trans hcontract.exit_one_iff.symm, ?_⟩
    intro hquiet code stdout stderr code' stdout' stderr' hexit hexit'
    rw [houtcome, hlogged hquiet] at hexit
    rw [houtcome', hlogged' hquiet] at hexit'
    exact (stderr_ofResult "" hexit').trans (stderr_ofResult "" hexit).symm
  · rintro rest rfl
    exact readRequest_check_of_sizes h
  · intro verbose other hother
    obtain ⟨logged', -, houtcome'⟩ := exists_outcome_eq_ofResult hother tree
    rw [houtcome, houtcome']
    exact Outcome.quiet_ofResult _ _ _
  · rintro name rest rfl hname
    exact readRequest_verbose hname h

theorem loadDocument_json [Host] {tree : FileTree} {path : Path} {text : List Char} {v : Value}
    {packages : List Package} (htext : tree.readText path = .ok text)
    (hread : Json.read text = .ok v)
    (hvalid : Document.documentOf (Document.normalize v) = .valid (packages.map .ok))
    (hcheck : ∀ p ∈ packages, p.check = .ok ()) :
    Format.json.loadDocument tree path = .ok packages := by
  have hdecode : Format.json.decode text = .ok v := mapError_eq_ok_iff.mpr hread
  have hload := loadPackages_eq_ok hvalid hcheck path.render
  exact bind_eq_ok_iff.mpr ⟨text, mapError_eq_ok_iff.mpr htext,
    bind_eq_ok_iff.mpr ⟨v, mapError_eq_ok_iff.mpr hdecode, mapError_eq_ok_iff.mpr hload⟩⟩

def wideText : List Char :=
  ("\x7b\"types\":[\x7b\"name\":\"T\",\"fields\":[\x7b\"type\":\x7b\"kind\":\"primitive\"," ++
    "\"name\":\"int\"\x7d\x7d]\x7d],\"functions\":[\x7b\"name\":\"F\",\"position\":\x7b\"file\":" ++
    "\"f.go\",\"line\":3,\"column\":6\x7d,\"params\":[\x7b\"type\":\x7b\"kind\":\"named\"," ++
    "\"name\":\"T\"\x7d\x7d]\x7d]\x7d").toList

def wideTree : FileTree :=
  .folder [("a.json", .plain wideText)]

def widePackage : Package where
  name := ""
  types := [⟨"T", "T", [⟨"", .scalar ⟨"int", 0, 0, 1⟩⟩]⟩]
  signatures := [{ name := "F", position := ⟨"f.go", 3, 6⟩, params := [⟨"", .named "T" "T"⟩] }]

def wideRun (command : Command) : Invocation where
  command
  paths := [.ofString "a.json"]
  maxWidth := some 4

theorem loadDocument_wide :
    Format.json.loadDocument wideTree (.ofString "a.json") = .ok [widePackage] := by
  have htext : wideTree.readText (.ofString "a.json") = .ok wideText :=
    FileTree.readText_plain (by decide +kernel) rfl rfl
  have hfound : (Json.read wideText).toOption.map
      (fun v => Document.documentOf (Document.normalize v)) = some (.valid [.ok widePackage]) := by
    decide +kernel
  obtain ⟨v, hread, hvalid⟩ := Option.map_eq_some_iff.mp hfound
  have hchecked : widePackage.check = .ok () :=
    (Package.check_eq_ok_iff_layouts {} (by decide) (by decide)).mpr (by decide)
  exact loadDocument_json htext (toOption_eq_some_iff.mp hread) hvalid
    (List.forall_mem_singleton.mpr hchecked)

theorem prepared_wide (command : Command) :
    (wideRun command).prepared wideTree = .ok ({ maxWidth := 4 }, [widePackage]) := by
  have hsettings : (wideRun command).configured wideTree = .ok ({ maxWidth := 4 }, []) := rfl
  have hformat : Format.choose none Format.json.name [.ofString "a.json"] = .ok .json := by
    decide +kernel
  have hfiles : Format.json.discover [] wideTree [.ofString "a.json"] =
      .ok [.ofString "a.json"] := rfl
  refine bind_eq_ok_iff.mpr ⟨_, hsettings, bind_eq_ok_iff.mpr ⟨[widePackage], ?_, rfl⟩⟩
  refine bind_eq_ok_iff.mpr ⟨.json, mapError_eq_ok_iff.mpr hformat, ?_⟩
  refine bind_eq_ok_iff.mpr ⟨_, mapError_eq_ok_iff.mpr hfiles, ?_⟩
  refine bind_eq_ok_iff.mpr ⟨[[widePackage]], ?_, rfl⟩
  rw [List.mapM_cons, loadDocument_wide]
  rfl

theorem analyze_wide : ∃ analysis, analyze { maxWidth := 4 } [widePackage] = .ok analysis ∧
    analysis.sites = [⟨widePackage.signatures.head (by decide), ["parameter at index 0"]⟩] := by
  have hfound : [widePackage].flatMap (Package.sites { maxWidth := 4 }) =
      [⟨widePackage.signatures.head (by decide), ["parameter at index 0"]⟩] := by
    decide +kernel
  refine ⟨_, analyze_eq (Invocation.sound_of_prepared (prepared_wide .sizes)) _, ?_⟩
  rw [hfound]
  exact List.mergeSort_singleton _

theorem footprintTable_wide :
    footprintTable { maxWidth := 4 } [widePackage] = .ok [⟨"", "T", "T", 8, true⟩] := by
  have hfound : [widePackage].flatMap (Package.rows { maxWidth := 4 }) =
      [⟨"", "T", "T", 8, true⟩] := by
    decide +kernel
  rw [footprintTable_eq (Invocation.sound_of_prepared (prepared_wide .sizes)), hfound]
  exact congrArg _ (List.mergeSort_singleton _)

/-- The document has a copy site, which the one command reports, and a row, which the other prints.
Without the document both fail. -/
theorem runs_keep_their_contract_wide :
    readRequest ["check", "--max", "4", "a.json"] = .ok (.run (wideRun (.check .text))) ∧
    readRequest ["sizes", "--max", "4", "a.json"] = .ok (.run (wideRun .sizes)) ∧
    outcome ["check", "--max", "4", "a.json"] (.folder []) =
      .exit 1 "" "unable to stat file 'a.json': no such file or directory\n" ∧
    (∃ stdout, outcome ["sizes", "--max", "4", "a.json"] (.folder []) = .exit 1 stdout
      "unable to stat file 'a.json': no such file or directory\n") ∧
    outcome ["check", "--max", "4", "a.json"] wideTree =
      .exit 2 "f.go:3:6: parameter at index 0 should be made into a pointer (func F(T))\n" "" ∧
    (outcome ["check", "--verbose", "--max", "4", "a.json"] wideTree).quiet =
      .exit 2 "f.go:3:6: parameter at index 0 should be made into a pointer (func F(T))\n" "" ∧
    outcome ["sizes", "--max", "4", "a.json"] wideTree = .exit 0 "T\t8\twide\n" "" := by
  have hcheck : readRequest ["check", "--max", "4", "a.json"] =
      .ok (.run (wideRun (.check .text))) := by
    decide +kernel
  have hsizes : readRequest ["sizes", "--max", "4", "a.json"] = .ok (.run (wideRun .sizes)) := by
    decide +kernel
  have hfailed : outcome ["check", "--max", "4", "a.json"] (.folder []) =
      .exit 1 "" "unable to stat file 'a.json': no such file or directory\n" := by
    have hmissing : (wideRun (.check .text)).prepared (.folder []) =
        .error (.discovery (.missingPath "a.json")) := rfl
    obtain ⟨logged, hlogged, hends⟩ :=
      (runs_keep_their_contract (.folder []) hcheck).1.failed _ hmissing
    rw [hends, hlogged rfl]
    exact congrArg (Outcome.exit 1 "") (by decide +kernel)
  have hreported : outcome ["check", "--max", "4", "a.json"] wideTree =
      .exit 2 "f.go:3:6: parameter at index 0 should be made into a pointer (func F(T))\n" "" := by
    obtain ⟨analysis, hanalysis, hsites⟩ := analyze_wide
    obtain ⟨_, hanalysis', hprinted, hends⟩ :=
      (runs_keep_their_contract wideTree hcheck).1.checked _ _ _ rfl (prepared_wide _)
    cases hanalysis.symm.trans hanalysis'
    have hrendered : Invocation.rendered .text analysis.sites =
        .ok "f.go:3:6: parameter at index 0 should be made into a pointer (func F(T))\n" := by
      rw [hprinted rfl, hsites]
      decide +kernel
    rw [hrendered, hsites] at hends
    obtain ⟨logged, hlogged, hends⟩ := hends
    rw [hends, hlogged rfl]
    rfl
  refine ⟨hcheck, hsizes, hfailed, ?_, hreported, ?_, ?_⟩
  · obtain ⟨hiff, hstderr⟩ := (runs_keep_their_contract (.folder []) hcheck).2.1 _ _ hsizes
    obtain ⟨stdout, stderr, hends⟩ := hiff.mpr ⟨_, _, hfailed⟩
    rw [hends, hstderr rfl _ _ _ _ _ _ hfailed hends]
    exact ⟨stdout, rfl⟩
  · obtain ⟨-, -, -, hquiet, hverbose⟩ := runs_keep_their_contract wideTree hcheck
    rw [hquiet true _ (hverbose _ _ rfl (.inl rfl)), hreported]
    rfl
  · obtain ⟨_, hrows, -, hends⟩ :=
      (runs_keep_their_contract wideTree hsizes).1.sized _ _ rfl (prepared_wide _)
    cases footprintTable_wide.symm.trans hrows
    have hlines : [(⟨"", "T", "T", 8, true⟩ : FootprintRow)].mapM FootprintRow.line =
        .ok ["T\t8\twide"] := by
      decide +kernel
    rw [hlines] at hends
    obtain ⟨logged, hlogged, hends⟩ := hends
    rw [hends, hlogged rfl]
    exact congrArg (Outcome.exit 0 · "") (by decide +kernel)

def redRun : Invocation where
  command := .check .text
  paths := [.ofString "x"]
  configFile := some (.ofString "\x1b[31m.toml")

/-- A message with an escape sequence is not printed as it is. -/
theorem red_message_is_not_printed :
    readRequest ["check", "--config", "\x1b[31m.toml", "x"] = .ok (.run redRun) ∧
      ∃ failure stderr, redRun.prepared (.folder []) = .error failure ∧ failure.escapes = false ∧
        outcome ["check", "--config", "\x1b[31m.toml", "x"] (.folder []) = .exit 1 "" stderr ∧
        ¬(failure.message ++ "\n").toList <:+ stderr.toList := by
  have hwords : readRequest ["check", "--config", "\x1b[31m.toml", "x"] = .ok (.run redRun) := by
    decide +kernel
  have hprepared : redRun.prepared (.folder []) =
      .error (.configFile (.missing "\x1b[31m.toml")) := rfl
  obtain ⟨logged, hlogged, houtcome⟩ := exists_outcome_eq_ofResult hwords (.folder [])
  rw [hlogged rfl, ofResult_of_error "" hprepared] at houtcome
  refine ⟨hwords, _, _, hprepared, rfl, houtcome, ?_⟩
  decide +kernel

end CopyLint.CommandLine
