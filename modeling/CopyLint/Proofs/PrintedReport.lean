import CopyLint.CommandLine.Run
import CopyLint.Proofs.JsonRoundTrip
import CopyLint.Proofs.LoadedPackage

/-! The two forms of a report. Its data can be printed if no number in it is too long; what is
printed is read back as the same data, and says line by line what the report in lines says. -/
namespace CopyLint

open CommandLine

def allShort (numbers : List Int) : Bool :=
  numbers.all fun n => !Digits.isOverlong n

theorem all_eq_allShort {α : Type} {test : α → Bool} {numbers : α → List Int} {as : List α}
    (h : ∀ a ∈ as, test a = allShort (numbers a)) :
    as.all test = allShort (as.flatMap numbers) := by
  induction as with
  | nil => rfl
  | cons a rest ih =>
    obtain ⟨ha, hrest⟩ := List.forall_mem_cons.mp h
    rw [List.all_cons, ha, ih hrest, List.flatMap_cons]
    exact List.all_append.symm

theorem isOk_numeral (n : Int) : (numeral n).isOk = !Digits.isOverlong n := by
  unfold numeral
  cases Digits.isOverlong n <;> rfl

namespace TypeRef

def shownLengths : TypeRef → List Int
  | pointer target label => if label = "" then target.shownLengths else []
  | array elem length => length :: elem.shownLengths
  | _ => []

theorem isOk_render {ref : TypeRef} (h : ref.Supported) :
    ref.render.isOk = allShort ref.shownLengths := by
  induction ref with
  | pointer target label ih =>
    simp only [render, shownLengths]
    split
    · rw [bind_pure_comp, isOk_map, ih h]
    · rfl
  | array elem length ih =>
    simp only [render, shownLengths]
    rw [isOk_bind (b := elem.render.isOk), isOk_mapError, isOk_numeral, ih h]
    · rfl
    · intro count _
      rw [bind_pure_comp, isOk_map]
  | unsupported => exact absurd h id
  | scalar | named | rawPointer => rfl

end TypeRef

namespace Signature

def shownLengths (s : Signature) : List Int :=
  if s.display = "" then s.spelled.flatMap TypeRef.shownLengths else []

def spellable (params : List Param) : Bool :=
  params.all fun p => p.type.render.isOk

theorem isOk_renderList (params : List Param) : (renderList params).isOk = spellable params := by
  rw [renderList, bind_pure_comp, isOk_map, isOk_mapM]
  apply congrArg params.all
  funext p
  rw [Param.render, bind_pure_comp, isOk_map]

theorem isOk_renderReceiver (receiver : Option Param) :
    (renderReceiver receiver).isOk = spellable receiver.toList := by
  cases receiver with
  | none => rfl
  | some p =>
    rw [renderReceiver, bind_pure_comp, isOk_map, Param.render, bind_pure_comp, isOk_map]
    exact (Bool.and_true _).symm

theorem isOk_renderResults (results : List Param) :
    (renderResults results).isOk = spellable results := by
  cases results with
  | nil => rfl
  | cons p rest =>
    simp only [renderResults]
    rw [isOk_bind (b := true), Bool.and_true, isOk_renderList]
    intro text _
    split <;> rfl

theorem isOk_describe {s : Signature} (h : ∀ ref ∈ s.spelled, ref.Supported) :
    s.describe.isOk = allShort s.shownLengths := by
  unfold describe shownLengths
  split
  · have hparams : ∀ p ∈ s.receiver.toList ++ s.params ++ s.results, p.type.Supported :=
      fun p hp => h _ (List.mem_map_of_mem hp)
    rw [spelled, List.flatMap_map,
      ← all_eq_allShort fun p hp => TypeRef.isOk_render (hparams p hp),
      isOk_bind (b := spellable s.params && spellable s.results), isOk_renderReceiver]
    · simp [spellable]
    · intro receiver _
      rw [isOk_bind (b := spellable s.results), isOk_renderList]
      intro params _
      rw [bind_pure_comp, isOk_map, isOk_renderResults]
  · rfl

end Signature

def Position.lineOf (p : Position) (message : String) : String :=
  s!"{p.file}:{p.line}:{p.column}: {message}"

theorem Position.render_eq_ok {p : Position} (hline : Digits.isOverlong p.line = false)
    (hcolumn : Digits.isOverlong p.column = false) :
    p.render = .ok s!"{p.file}:{p.line}:{p.column}" := by
  rw [render, numeral, numeral, hline, hcolumn]
  rfl

/-- The line that the data of a site makes. -/
def entryLine? : Value → Option String
  | .table entries =>
    match Value.get? entries "file", Value.get? entries "line", Value.get? entries "column",
        Value.get? entries "message" with
    | some (.text file), some (.int line), some (.int column), some (.text message) =>
      some (Position.lineOf ⟨file, line, column⟩ message)
    | _, _, _, _ => none
  | _ => none

namespace CopySite

theorem isOk_message (site : CopySite) : site.message.isOk = site.signature.describe.isOk := by
  rw [message, bind_pure_comp, isOk_map]

theorem isOk_toValue (site : CopySite) : site.toValue.isOk = site.signature.describe.isOk := by
  rw [toValue, isOk_bind (b := site.signature.describe.isOk), Bool.and_self]
  intro description _
  rw [bind_pure_comp, isOk_map, isOk_message]

def coordinates (site : CopySite) : List Int :=
  [site.signature.position.line, site.signature.position.column]

def data (site : CopySite) (description message : String) : List (String × Value) := [
  ("file", .text site.signature.position.file),
  ("line", .int site.signature.position.line),
  ("column", .int site.signature.position.column),
  ("function", .text description),
  ("should_be", .list (site.shouldBe.map .text)),
  ("message", .text message)]

theorem nodup_data (site : CopySite) (description message : String) :
    ((site.data description message).map (·.1)).Nodup :=
  show ["file", "line", "column", "function", "should_be", "message"].Nodup by decide

section

variable {site : CopySite} {v : Value} (h : site.toValue = .ok v)

include h

theorem exists_data_of_toValue : ∃ description message,
    site.message = .ok message ∧ v = .table (site.data description message) := by
  obtain ⟨description, -, h⟩ := bind_eq_ok_iff.mp h
  obtain ⟨message, hmessage, h⟩ := bind_eq_ok_iff.mp h
  cases h
  exact ⟨description, message, hmessage, rfl⟩

theorem hasOverlong_toValue : v.hasOverlong = !allShort site.coordinates := by
  obtain ⟨description, message, -, rfl⟩ := exists_data_of_toValue h
  have htexts : Value.anyOverlong (site.shouldBe.map .text) = false := by
    simp [Value.anyOverlong_eq_any, Value.hasOverlong]
  simp [data, coordinates, allShort, Value.hasOverlong, Value.anyEntryOverlong, htexts]

theorem short_of_toValue (hshort : v.hasOverlong = false) :
    Digits.isOverlong site.signature.position.line = false ∧
      Digits.isOverlong site.signature.position.column = false := by
  simpa [hasOverlong_toValue h, allShort, coordinates] using hshort

variable (hshort : v.hasOverlong = false)

include hshort

theorem plain_toValue : v.Plain := by
  obtain ⟨hline, hcolumn⟩ := short_of_toValue h hshort
  obtain ⟨description, message, -, rfl⟩ := exists_data_of_toValue h
  apply Value.Plain.table (nodup_data site description message)
  simp only [data, List.forall_mem_cons]
  refine ⟨.text _, .int hline, .int hcolumn, .text _, .list ?_, .text _, by simp⟩
  simpa using fun place _ => Value.Plain.text place

theorem line_eq_entryLine? : ∃ line, site.line = .ok line ∧ entryLine? v.sortKeys = some line := by
  obtain ⟨hline, hcolumn⟩ := short_of_toValue h hshort
  obtain ⟨description, message, hmessage, rfl⟩ := exists_data_of_toValue h
  have hkeys := nodup_data site description message
  refine ⟨site.signature.position.lineOf message, ?_, ?_⟩
  · rw [line, Position.render_eq_ok hline hcolumn, hmessage]
    rfl
  · simp only [Value.sortKeys, entryLine?, Value.get?_byKey_sortEntries hkeys]
    rfl

end

end CopySite

/-! The report of several sites. -/

/-- The numbers that a report shows: how many sites there are, where they stand, and the lengths of
arrays in their descriptions. -/
def reportNumbers (sites : List CopySite) : List Int :=
  (sites.length : Int) :: sites.flatMap CopySite.coordinates ++
    sites.flatMap fun site => site.signature.shownLengths

def reportFields (entries : List Value) : List (String × Value) :=
  [("sites", .list entries), ("count", .int entries.length)]

theorem nodup_reportFields (entries : List Value) : ((reportFields entries).map (·.1)).Nodup :=
  show ["sites", "count"].Nodup by decide

theorem hasOverlong_reportFields (entries : List Value) :
    (Value.table (reportFields entries)).hasOverlong =
      (entries.any Value.hasOverlong || Digits.isOverlong entries.length) := by
  simp [reportFields, Value.hasOverlong, Value.anyEntryOverlong, Value.anyOverlong_eq_any]

theorem isOk_reportValue (sites : List CopySite) :
    (reportValue sites).isOk = sites.all fun site => site.signature.describe.isOk := by
  rw [reportValue, bind_pure_comp, isOk_map, isOk_mapM]
  simp only [CopySite.isOk_toValue]
  exact (List.mergeSort_perm sites _).all_eq

theorem any_hasOverlong_entries {sites : List CopySite} {entries : List Value}
    (h : List.Forall₂ (fun site entry => site.toValue = .ok entry) sites entries) :
    entries.any Value.hasOverlong = !allShort (sites.flatMap CopySite.coordinates) := by
  induction h with
  | nil => rfl
  | cons hentry _ ih =>
    rw [List.any_cons, CopySite.hasOverlong_toValue hentry, ih, List.flatMap_cons, ← Bool.not_and]
    exact congrArg (!·) List.all_append.symm

section

variable {sites : List CopySite} {report : Value} (h : reportValue sites = .ok report)

include h

theorem exists_entries_of_reportValue : ∃ entries,
    List.Forall₂ (fun site entry => site.toValue = .ok entry) (CopySite.sorted sites) entries ∧
      report = .table (reportFields entries) := by
  obtain ⟨entries, hentries, h⟩ := bind_eq_ok_iff.mp h
  cases h
  exact ⟨entries, mapM_eq_ok_iff.mp hentries, rfl⟩

theorem hasOverlong_reportValue : report.hasOverlong =
    !allShort (sites.length :: sites.flatMap CopySite.coordinates) := by
  obtain ⟨entries, hentries, rfl⟩ := exists_entries_of_reportValue h
  have hperm : (CopySite.sorted sites).Perm sites := List.mergeSort_perm sites _
  have hlength : entries.length = sites.length := hentries.length_eq.symm.trans hperm.length_eq
  have hsites := any_hasOverlong_entries hentries
  rw [allShort, (hperm.flatMap_right _).all_eq, ← allShort] at hsites
  rw [hasOverlong_reportFields, hsites, hlength]
  simp [allShort, Bool.or_comm]

end

theorem isOk_reportText {sites : List CopySite}
    (h : ∀ site ∈ sites, ∀ ref ∈ site.signature.spelled, ref.Supported) :
    (reportText sites).isOk = allShort (reportNumbers sites) := by
  have hdescribed : (sites.all fun site => site.signature.describe.isOk) =
      allShort (sites.flatMap fun site => site.signature.shownLengths) :=
    all_eq_allShort fun site hsite => Signature.isOk_describe (h site hsite)
  rw [reportText, isOk_bind (b := allShort (sites.length :: sites.flatMap CopySite.coordinates)),
    isOk_reportValue, hdescribed]
  · rw [reportNumbers, allShort, allShort, allShort, List.all_append, Bool.and_comm]
  · intro report hreport
    rw [isOk_mapError, Json.print, hasOverlong_reportValue hreport]
    cases allShort (sites.length :: sites.flatMap CopySite.coordinates) <;> rfl

section

variable {sites : List CopySite} {entries : List Value}
  (h : List.Forall₂ (fun site entry => site.toValue = .ok entry) sites entries)
  (hshort : ∀ entry ∈ entries, entry.hasOverlong = false)

include h hshort

theorem plain_entries : ∀ entry ∈ entries, entry.Plain := by
  induction h with
  | nil => simp
  | cons hentry _ ih =>
    obtain ⟨hfirst, hothers⟩ := List.forall_mem_cons.mp hshort
    exact List.forall_mem_cons.mpr ⟨CopySite.plain_toValue hentry hfirst, ih hothers⟩

theorem exists_lines : ∃ lines, sites.mapM CopySite.line = .ok lines ∧
    (entries.map Value.sortKeys).mapM entryLine? = some lines := by
  induction h with
  | nil => exact ⟨[], rfl, rfl⟩
  | cons hentry _ ih =>
    obtain ⟨hfirst, hothers⟩ := List.forall_mem_cons.mp hshort
    obtain ⟨line, hline, hread⟩ := CopySite.line_eq_entryLine? hentry hfirst
    obtain ⟨lines, hlines, hreads⟩ := ih hothers
    refine ⟨line :: lines, ?_, ?_⟩
    · rw [List.mapM_cons, hline, hlines]
      rfl
    · rw [List.map_cons, List.mapM_cons, hread, hreads]
      rfl

end

theorem decode_write [Host] {v : Value} (h : v.Plain) :
    Format.json.decode (Invocation.unlines [Json.write v]).toList = .ok v.sortKeys := by
  have htext : (Invocation.unlines [Json.write v]).toList = (Json.write v).toList ++ ['\n'] := by
    simp [Invocation.unlines, String.join]
  rw [htext, Format.decode, Json.read_write h (by simp [Json.Ends]) rfl]
  rfl

theorem exists_of_reportText {sites : List CopySite} {text : String}
    (h : reportText sites = .ok text) : ∃ report, reportValue sites = .ok report ∧
      report.hasOverlong = false ∧ text = Json.write report := by
  obtain ⟨report, hreport, h⟩ := bind_eq_ok_iff.mp h
  obtain ⟨hshort, rfl⟩ := Json.print_eq_ok_iff.mp (mapError_eq_ok_iff.mp h)
  exact ⟨report, hreport, hshort, rfl⟩

/-- A report can be printed as data if no number in it is too long. What is printed is then read
back as the data of the report, and its entries make the lines of the report, in the same order. -/
theorem printed_report_is_read_back [Host] (sites : List CopySite)
    (h : ∀ site ∈ sites, ∀ ref ∈ site.signature.spelled, ref.Supported) :
    ((∃ stdout, Invocation.rendered .json sites = .ok stdout) ↔
      ∀ n ∈ reportNumbers sites, Digits.isOverlong n = false) ∧
    ∀ stdout, Invocation.rendered .json sites = .ok stdout → ∃ report fields entries lines,
      reportValue sites = .ok report ∧
      Format.json.decode stdout.toList = .ok report.sortKeys ∧
      report.sortKeys = .table fields ∧
      Value.get? fields "sites" = some (.list entries) ∧
      Value.get? fields "count" = some (.int entries.length) ∧
      reportLines sites = .ok lines ∧ entries.mapM entryLine? = some lines := by
  refine ⟨?_, ?_⟩
  · have hok := isOk_reportText h
    rw [← isOk_map (fun text => Invocation.unlines [text]), Bool.eq_iff_iff, isOk_iff_exists] at hok
    simpa [allShort, Invocation.rendered] using hok
  · intro stdout hstdout
    obtain ⟨text, htext, rfl⟩ := map_eq_ok_iff.mp hstdout
    obtain ⟨report, hreport, hshort, rfl⟩ := exists_of_reportText htext
    obtain ⟨entries, hentries, rfl⟩ := exists_entries_of_reportValue hreport
    rw [hasOverlong_reportFields, Bool.or_eq_false_iff, List.any_eq_false] at hshort
    have hentry : ∀ entry ∈ entries, entry.hasOverlong = false := by simpa using hshort.1
    have hplain : (Value.table (reportFields entries)).Plain := by
      apply Value.Plain.table (nodup_reportFields entries)
      simp only [reportFields, List.forall_mem_cons]
      exact ⟨.list (plain_entries hentries hentry), .int hshort.2, by simp⟩
    obtain ⟨lines, hlines, hreads⟩ := exists_lines hentries hentry
    refine ⟨_, _, entries.map Value.sortKeys, lines, hreport, decode_write hplain,
      by rw [Value.sortKeys], ?_, ?_, hlines, hreads⟩
    · rw [Value.get?_byKey_sortEntries (nodup_reportFields entries), reportFields,
        Value.get?_cons_self, Option.map_some, Value.sortKeys, Value.sortItems_eq_map]
    · rw [Value.get?_byKey_sortEntries (nodup_reportFields entries), reportFields, List.length_map]
      rfl

/-- Two sites of one file, found in the wrong order, with a quote, a line break, a backslash, an
escape character and characters outside ASCII and outside sixteen bits in their texts. -/
def oddSites : List CopySite := [
  { signature := {
      name := "Draw\"\n", position := ⟨"é\\😀.go", 12, 7⟩
      params := [⟨"img", .named "Image" "Image"⟩, ⟨"", .array (.named "Tile" "Tile\x1b") 64⟩] }
    shouldBe := ["parameter 'img' at index 0"] },
  { signature := { name := "Copy", position := ⟨"é\\😀.go", 3, -1⟩, display := "func Copy(…)" }
    shouldBe := ["receiver", "return value \t at index 0"] }]

theorem printed_report_is_read_back_odd :
    (∀ site ∈ oddSites, ∀ ref ∈ site.signature.spelled, ref.Supported) ∧
      ∃ stdout, Invocation.rendered .json oddSites = .ok stdout ∧ ∃ report fields entries lines,
        reportValue oddSites = .ok report ∧
        Format.json.decode stdout.toList = .ok report.sortKeys ∧
        report.sortKeys = .table fields ∧
        Value.get? fields "sites" = some (.list entries) ∧
        Value.get? fields "count" = some (.int entries.length) ∧
        reportLines oddSites = .ok lines ∧ entries.mapM entryLine? = some lines := by
  have hsupported : ∀ site ∈ oddSites, ∀ ref ∈ site.signature.spelled, ref.Supported := by decide
  obtain ⟨hprinted, hread⟩ := printed_report_is_read_back oddSites hsupported
  obtain ⟨stdout, hstdout⟩ := hprinted.mpr (by decide)
  exact ⟨hsupported, stdout, hstdout, hread stdout hstdout⟩

theorem rendered_ne_ok_of_isOverlong_line {sites : List CopySite} {site : CopySite}
    (h : ∀ site ∈ sites, ∀ ref ∈ site.signature.spelled, ref.Supported) (hsite : site ∈ sites)
    (hlong : Digits.isOverlong site.signature.position.line = true) (stdout : String) :
    Invocation.rendered .json sites ≠ .ok stdout := by
  have hline : site.signature.position.line ∈ reportNumbers sites := by
    refine List.mem_append_left _ (List.mem_cons_of_mem _ ?_)
    exact List.mem_flatMap.mpr ⟨site, hsite, List.mem_cons_self⟩
  have hok : (reportText sites).isOk = false := by
    rw [isOk_reportText h, allShort, List.all_eq_false]
    exact ⟨_, hline, by simp [hlong]⟩
  intro hstdout
  obtain ⟨text, htext, -⟩ := map_eq_ok_iff.mp hstdout
  simp [htext, Except.isOk, Except.toBool] at hok

def farLine : Nat :=
  Digits.value ('1' :: List.replicate Digits.limit '0')

def farSite : CopySite where
  signature := { name := "Far", position := ⟨"far.go", farLine, 1⟩ }
  shouldBe := ["receiver"]

theorem far_site_is_not_printed :
    (∀ site ∈ [farSite], ∀ ref ∈ site.signature.spelled, ref.Supported) ∧
      ∀ stdout, Invocation.rendered .json [farSite] ≠ .ok stdout := by
  have hsupported : ∀ site ∈ [farSite], ∀ ref ∈ site.signature.spelled, ref.Supported := by decide
  have hlong : Digits.isOverlong farSite.signature.position.line = true := by decide +kernel
  exact ⟨hsupported, rendered_ne_ok_of_isOverlong_line hsupported List.mem_cons_self hlong⟩

end CopyLint
