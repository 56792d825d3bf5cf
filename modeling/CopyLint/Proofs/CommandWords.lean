import CopyLint.CommandLine.Invocation
import CopyLint.Proofs.LoadedPackage

/-! Words on the command line that ask for nearly the same: the same words after another command,
and the same words with a flag before them. -/
namespace CopyLint.CommandLine

namespace Word

variable {options : List String} {word : String}

theorem read_verbose (options : List String) : read options "--verbose" = .ok verbose := by
  simp [read, splitOption, pure, Except.pure]

theorem read_of_read {more : List String} (hmore : ∀ name ∈ options, name ∈ more) {kind : Word}
    (h : read options word = .ok kind) : read more word = .ok kind := by
  unfold read at h ⊢
  split at h
  · exact h
  · simp only at h ⊢
    split_ifs at h ⊢ <;> simp_all
  · exact h
  · exact h

theorem mem_of_read {name : String} {attached : Option String}
    (h : read options word = .ok (option name attached)) : name ∈ options := by
  unfold read at h
  split at h
  · cases h
  · simp only at h
    split_ifs at h with hflag hattached hverbose hoption
    all_goals cases h
    exact List.contains_iff_mem.mp hoption
  · split_ifs at h <;> cases h
  · cases h

end Word

namespace Arguments

/-- Neither more options to choose from nor a flag that was set before changes what else is
collected. -/
theorem collect_of_collect {options : List String} (more : List String)
    (hmore : ∀ name ∈ options, name ∈ more) (verbose : Bool) {a found : Arguments}
    {words : List String} (h : collect options a words = .ok found) :
    collect more { a with verbose := a.verbose || verbose } words =
      .ok { found with verbose := found.verbose || verbose } := by
  fun_induction collect options a words with
  | case1 a =>
    cases h
    rfl
  | case2 a word rest ihverbose ihhelp ihattached ihnext ihpath =>
    obtain ⟨kind, hkind, h⟩ := bind_eq_ok_iff.mp h
    rw [collect, Word.read_of_read hmore hkind]
    cases kind with
    | stop =>
      cases h
      rfl
    | verbose => exact ihverbose h
    | help => exact ihhelp h
    | option name attached =>
      cases attached with
      | some value => exact ihattached name value h
      | none =>
        cases rest with
        | nil => cases h
        | cons value rest => exact ihnext name h
    | path => exact ihpath h

theorem mem_of_collect {options : List String} {a found : Arguments} {words : List String}
    (h : collect options a words = .ok found) (ha : ∀ entry ∈ a.values, entry.1 ∈ options) :
    ∀ entry ∈ found.values, entry.1 ∈ options := by
  fun_induction collect options a words with
  | case1 a =>
    cases h
    exact ha
  | case2 a word rest ihverbose ihhelp ihattached ihnext ihpath =>
    obtain ⟨kind, hkind, h⟩ := bind_eq_ok_iff.mp h
    cases kind with
    | stop =>
      cases h
      exact ha
    | verbose => exact ihverbose h ha
    | help => exact ihhelp h ha
    | option name attached =>
      have hcons : ∀ value, ∀ entry ∈ (name, value) :: a.values, entry.1 ∈ options :=
        fun value => List.forall_mem_cons.mpr ⟨Word.mem_of_read hkind, ha⟩
      cases attached with
      | some value => exact ihattached name value h (hcons value)
      | none =>
        cases rest with
        | nil => cases h
        | cons value rest => exact ihnext name h (hcons value)
    | path => exact ihpath h ha

theorem output_of_collect {a : Arguments} {words : List String}
    (h : collect commonOptions {} words = .ok a) : a.output = .ok .text := by
  have hnone : a.get? "--output" = none := by
    have hnot : "--output" ∉ commonOptions := by decide
    apply List.lookup_eq_none_iff.mpr
    intro entry hentry
    rw [bne_iff_ne]
    rintro heq
    exact hnot (heq ▸ mem_of_collect h (by simp) entry hentry)
  simp [output, hnone, pure, Except.pure]

theorem toInvocation_of_toInvocation [Host] {a : Arguments} {command : Command} {i : Invocation}
    (h : a.toInvocation command = .ok i) (other : Command) (verbose : Bool) :
    ({ a with verbose := a.verbose || verbose } : Arguments).toInvocation other =
      .ok { i with command := other, verbose := i.verbose || verbose } := by
  obtain ⟨maxWidth, hmaxWidth, h⟩ := bind_eq_ok_iff.mp h
  obtain ⟨wordSize, hwordSize, h⟩ := bind_eq_ok_iff.mp h
  obtain ⟨maxAlign, hmaxAlign, h⟩ := bind_eq_ok_iff.mp h
  have hinteger : ∀ option, integer? { a with verbose := a.verbose || verbose } option =
      a.integer? option := fun _ => rfl
  rw [toInvocation, hinteger, hinteger, hinteger, hmaxWidth, hwordSize, hmaxAlign]
  dsimp only at h
  split at h
  · cases h
  · next hpaths =>
    cases h
    change (if a.paths = [] then _ else _) = _
    rw [if_neg hpaths]
    rfl

theorem toInvocation_verbose [Host] {a : Arguments} {command : Command} {i : Invocation}
    (h : a.toInvocation command = .ok i) :
    ({ a with verbose := true } : Arguments).toInvocation command =
      .ok { i with verbose := true } := by
  have hsame := toInvocation_of_toInvocation h command false
  have hverbose := toInvocation_of_toInvocation h command true
  simp only [Bool.or_false, h, Except.ok.injEq] at hsame
  simp only [Bool.or_true] at hverbose
  rw [hverbose, hsame]

end Arguments

section

variable [Host] {rest : List String} {i : Invocation}

theorem readRequest_check_eq_ok_iff : readRequest ("check" :: rest) = .ok (.run i) ↔
    ∃ a output, Arguments.collect ("--output" :: commonOptions) {} rest = .ok a ∧ a.help = false ∧
      a.output = .ok output ∧ a.toInvocation (.check output) = .ok i := by
  have hcheck : readRequest ("check" :: rest) = readCommand "check" rest := by
    simp [readRequest, beforeCommand]
  rw [hcheck, readCommand, if_pos rfl]
  constructor
  · intro h
    obtain ⟨a, ha, h⟩ := bind_eq_ok_iff.mp h
    split at h
    · cases h
    · next hhelp =>
      obtain ⟨output, houtput, h⟩ := bind_eq_ok_iff.mp h
      obtain ⟨invocation, hi, h⟩ := bind_eq_ok_iff.mp h
      cases h
      exact ⟨a, output, ha, by simpa using hhelp, houtput, hi⟩
  · rintro ⟨a, output, ha, hhelp, houtput, hi⟩
    simp [ha, hhelp, houtput, hi, bind, Except.bind, pure, Except.pure]

theorem readRequest_sizes_eq_ok_iff : readRequest ("sizes" :: rest) = .ok (.run i) ↔
    ∃ a, Arguments.collect commonOptions {} rest = .ok a ∧ a.help = false ∧
      a.toInvocation .sizes = .ok i := by
  have hsizes : readRequest ("sizes" :: rest) = readCommand "sizes" rest := by
    simp [readRequest, beforeCommand]
  rw [hsizes, readCommand, if_neg (by decide), if_pos rfl]
  constructor
  · intro h
    obtain ⟨a, ha, h⟩ := bind_eq_ok_iff.mp h
    split at h
    · cases h
    · next hhelp =>
      obtain ⟨invocation, hi, h⟩ := bind_eq_ok_iff.mp h
      cases h
      exact ⟨a, ha, by simpa using hhelp, hi⟩
  · rintro ⟨a, ha, hhelp, hi⟩
    simp [ha, hhelp, hi, bind, Except.bind, pure, Except.pure]

theorem readRequest_check_of_sizes (h : readRequest ("sizes" :: rest) = .ok (.run i)) :
    readRequest ("check" :: rest) = .ok (.run { i with command := .check .text }) := by
  obtain ⟨a, ha, hhelp, hi⟩ := readRequest_sizes_eq_ok_iff.mp h
  have hcollect := Arguments.collect_of_collect ("--output" :: commonOptions)
    (fun name hname => List.mem_cons_of_mem _ hname) false ha
  have hinvoked := Arguments.toInvocation_of_toInvocation hi (.check .text) false
  simp only [Bool.or_false] at hcollect hinvoked
  exact readRequest_check_eq_ok_iff.mpr
    ⟨a, .text, hcollect, hhelp, Arguments.output_of_collect ha, hinvoked⟩

theorem readRequest_verbose {name : String} (hname : name = "check" ∨ name = "sizes")
    (h : readRequest (name :: rest) = .ok (.run i)) :
    readRequest (name :: "--verbose" :: rest) = .ok (.run { i with verbose := true }) := by
  have hflag : ∀ options a, Arguments.collect options {} rest = .ok a →
      Arguments.collect options {} ("--verbose" :: rest) = .ok { a with verbose := true } := by
    intro options a ha
    have hcollect := Arguments.collect_of_collect options (fun _ hmem => hmem) true ha
    simp only [Bool.or_true] at hcollect
    rw [Arguments.collect, Word.read_verbose]
    exact hcollect
  obtain rfl | rfl := hname
  · obtain ⟨a, output, ha, hhelp, houtput, hi⟩ := readRequest_check_eq_ok_iff.mp h
    exact readRequest_check_eq_ok_iff.mpr ⟨{ a with verbose := true }, output, hflag _ a ha, hhelp,
      houtput, Arguments.toInvocation_verbose hi⟩
  · obtain ⟨a, ha, hhelp, hi⟩ := readRequest_sizes_eq_ok_iff.mp h
    exact readRequest_sizes_eq_ok_iff.mpr ⟨{ a with verbose := true }, hflag _ a ha, hhelp,
      Arguments.toInvocation_verbose hi⟩

end

end CopyLint.CommandLine
