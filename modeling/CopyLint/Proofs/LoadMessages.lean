import CopyLint.Proofs.GraphVerdict
import CopyLint.Proofs.LoadedPackage
import CopyLint.Proofs.ShownLines

/-! Where lines break in the messages of documents that cannot be loaded. Keys, identities and the
names of references are quoted or known beforehand. What stands in a message as it is written in the
document, and may break its line, is the kind of a reference and the names of packages, definitions
and fields. -/
namespace CopyLint

open Text

/-- The text stands under the key in a table, at any depth. -/
inductive Value.Says (key text : String) : Value → Prop where
  | here {entries : List (String × Value)} (h : Value.get? entries key = some (.text text)) :
      Says key text (.table entries)
  | under {entries : List (String × Value)} {other : String} {v : Value}
      (h : Value.get? entries other = some v) (hv : Says key text v) :
      Says key text (.table entries)
  | item {items : List Value} {v : Value} (h : v ∈ items) (hv : Says key text v) :
      Says key text (.list items)

/-- The value has no names and no kinds but these. -/
structure Value.Within (names kinds : String → Prop) (v : Value) : Prop where
  name : ∀ text, v.Says "name" text → names text
  kind : ∀ text, v.Says "kind" text → kinds text

namespace Value.Within

variable {names kinds : String → Prop}

theorem entry {entries : List (String × Value)} (h : (table entries).Within names kinds)
    {key : String} {v : Value} (hv : get? entries key = some v) : v.Within names kinds where
  name text hsays := h.name text (.under hv hsays)
  kind text hsays := h.kind text (.under hv hsays)

theorem item {items : List Value} (h : (list items).Within names kinds) {v : Value}
    (hv : v ∈ items) : v.Within names kinds where
  name text hsays := h.name text (.item hv hsays)
  kind text hsays := h.kind text (.item hv hsays)

end Value.Within

namespace Document

/-- The texts that stand in the message as they are. -/
def Cause.bare : Cause → List String
  | unknownTag tag => [tag]
  | _ => []

def Cause.Plain (kinds : String → Prop) : Cause → Prop
  | notModel model => ¬Breaks model
  | unknownTag tag => Breaks tag → kinds tag
  | _ => True

theorem Cause.Plain.breaks_message_iff {kinds : String → Prop} {cause : Cause}
    (h : cause.Plain kinds) : Breaks cause.message ↔ ∃ text ∈ cause.bare, Breaks text := by
  cases cause with
  | notModel model =>
    change Breaks ("Input should be a valid dictionary or instance of " ++ model) ↔ _
    have hopen : ¬Breaks "Input should be a valid dictionary or instance of " :=
      mt breaks_ofList.mp (by decide)
    have hmodel : ¬Breaks model := h
    simp [breaks_append, hopen, hmodel, bare]
  | unknownTag tag =>
    change Breaks ("Input tag '" ++ tag ++
      "' found using 'kind' does not match any of the expected tags: " ++
      "'primitive', 'named', 'pointer', 'array'") ↔ _
    have hopen : ¬Breaks "Input tag '" := by decide
    have hclose : ¬Breaks "' found using 'kind' does not match any of the expected tags: " :=
      mt breaks_ofList.mp (by decide)
    have htags : ¬Breaks "'primitive', 'named', 'pointer', 'array'" :=
      mt breaks_ofList.mp (by decide)
    simp only [breaks_append, hopen, hclose, htags, bare]
    simp
  | missing | notText | notList | notTable | untagged | negative | notInteger | notFinite
  | fractional | tooLong | unreadableInteger | tooDeep =>
    simp only [bare, List.not_mem_nil, false_and, exists_false, iff_false]
    exact mt breaks_ofList.mp (by decide)

structure Fault.Plain (kinds : String → Prop) (fault : Fault) : Prop where
  location : ∀ segment ∈ fault.location, ¬Breaks segment
  cause : fault.cause.Plain kinds

theorem Fault.Plain.breaks_message_iff {kinds : String → Prop} {fault : Fault}
    (h : fault.Plain kinds) :
    Breaks fault.message ↔ ∃ text ∈ fault.cause.bare, Breaks text := by
  have hplace : ¬Breaks (if fault.location = [] then "<document>" else
      ".".intercalate fault.location) := by
    split
    · decide
    · rw [breaks_intercalate (by decide)]
      simpa using h.location
  have hcolon : ¬Breaks ": " := by decide
  rw [← h.cause.breaks_message_iff]
  change Breaks (_ ++ ": " ++ fault.cause.message) ↔ _
  rw [breaks_append, breaks_append, breaks_toString]
  simp [hplace, hcolon]

theorem Fault.Plain.kind_of_breaks {kinds : String → Prop} {fault : Fault} (h : fault.Plain kinds)
    {text : String} (htext : text ∈ fault.cause.bare) (hbreaks : Breaks text) : kinds text := by
  obtain ⟨location, cause⟩ := fault
  cases cause with
  | unknownTag tag =>
    cases List.mem_singleton.mp htext
    exact h.cause hbreaks
  | _ => cases htext

variable {α β : Type} {P : α → Prop} {Q : β → Prop} {names kinds : String → Prop}

namespace Checked

def Meets (kinds : String → Prop) (P : α → Prop) : Checked α → Prop
  | .valid a => P a
  | .faulty first _ => first.Plain kinds

theorem meets_fault {cause : Cause} (h : cause.Plain kinds) :
    (fault cause : Checked α).Meets kinds P :=
  ⟨List.forall_mem_nil _, h⟩

theorem Meets.map {c : Checked α} {f : α → β} (hc : c.Meets kinds P) (hf : ∀ a, P a → Q (f a)) :
    (f <$> c).Meets kinds Q := by
  cases c with
  | valid a => exact hf a hc
  | faulty first rest => exact hc

theorem Meets.imp {R : α → Prop} {c : Checked α} (hc : c.Meets kinds P) (h : ∀ a, P a → R a) :
    c.Meets kinds R := by
  cases c with
  | valid a => exact h a hc
  | faulty first rest => exact hc

theorem Meets.any {c : Checked α} (hc : c.Meets kinds P) : c.Meets kinds fun _ => True :=
  hc.imp fun _ _ => trivial

theorem Meets.seq {f : Checked (α → β)} {c : Checked α}
    (hf : f.Meets kinds fun g => ∀ a, P a → Q (g a)) (hc : c.Meets kinds P) :
    (f <*> c).Meets kinds Q := by
  cases f with
  | valid g =>
    cases c with
    | valid a => exact hf a hc
    | faulty first rest => exact hc
  | faulty first rest => cases c <;> exact hf

theorem Meets.within {c : Checked α} (hc : c.Meets kinds P) {segment : String}
    (hsegment : ¬Breaks segment) : (c.within segment).Meets kinds P := by
  cases c with
  | valid a => exact hc
  | faulty first rest => exact ⟨List.forall_mem_cons.mpr ⟨hsegment, hc.location⟩, hc.cause⟩

theorem meets_each {check : α → Checked β} {as : List α}
    (h : ∀ a ∈ as, (check a).Meets kinds Q) (index : Nat) :
    (each check index as).Meets kinds fun bs => ∀ b ∈ bs, Q b := by
  induction as generalizing index with
  | nil => exact List.forall_mem_nil _
  | cons a rest ih =>
    rw [List.forall_mem_cons] at h
    refine .seq (.map (h.1.within (not_breaks_toString_nat index)) ?_) (ih h.2 (index + 1))
    intro b hb bs hbs
    exact List.forall_mem_cons.mpr ⟨hb, hbs⟩

end Checked

section Combinators

variable {check : Value → Checked α} {entries : Entries} {key : String}

theorem meets_orNull {v : Value} (h : (check v).Meets kinds P) :
    (orNull check v).Meets kinds fun found => ∀ a ∈ found, P a := by
  unfold orNull
  split
  · exact nofun
  · apply h.map
    intro a ha b hb
    cases hb
    exact ha

theorem meets_listOf {v : Value} (hv : v.Within names kinds)
    (h : ∀ w, w.Within names kinds → (check w).Meets kinds P) :
    (listOf check v).Meets kinds fun found => ∀ a ∈ found, P a := by
  unfold listOf
  split
  · exact Checked.meets_each (fun w hw => h w (hv.item hw)) 0
  · exact Checked.meets_fault trivial

theorem meets_tableOf {v : Value} {read : Entries → Checked α} {model : String}
    (hv : v.Within names kinds) (hmodel : ¬Breaks model)
    (h : ∀ entries, (Value.table entries).Within names kinds → (read entries).Meets kinds P) :
    (tableOf model read v).Meets kinds P := by
  unfold tableOf
  split
  · exact h _ hv
  · exact Checked.meets_fault hmodel

theorem meets_required (hkey : ¬Breaks key)
    (h : ∀ v, Value.get? entries key = some v → (check v).Meets kinds P) :
    (required key check entries).Meets kinds P := by
  unfold required
  apply Checked.Meets.within _ hkey
  split
  · rename_i v hv
    exact h v hv
  · exact Checked.meets_fault trivial

theorem meets_optional (hkey : ¬Breaks key) {default : α} (hdefault : P default)
    (h : ∀ v, Value.get? entries key = some v → (check v).Meets kinds P) :
    (optional key default check entries).Meets kinds P := by
  unfold optional
  split
  · rename_i v hv
    exact (h v hv).within hkey
  · exact hdefault

end Combinators

theorem meets_textOf (v : Value) : (textOf v).Meets kinds fun text => v = .text text := by
  unfold textOf
  split
  · rfl
  · exact Checked.meets_fault trivial

theorem plain_of_integerOf {v : Value} {cause : Cause} (h : integerOf v = .error cause) :
    cause.Plain kinds := by
  unfold integerOf at h
  repeat' split at h
  all_goals cases h
  all_goals trivial

theorem meets_countOf (v : Value) : (countOf v).Meets kinds fun _ => True := by
  unfold countOf
  split
  · split
    · exact Checked.meets_fault trivial
    · trivial
  · rename_i cause h
    exact Checked.meets_fault (plain_of_integerOf h)

def Allowed (names : String → Prop) (name : String) : Prop :=
  Breaks name → names name

section Names

variable {entries : Entries} (h : (Value.table entries).Within names kinds)

include h

theorem meets_name {v : Value} (hv : Value.get? entries "name" = some v) :
    (textOf v).Meets kinds (Allowed names) := by
  apply (meets_textOf v).imp
  rintro text rfl _
  exact h.name text (.here hv)

theorem meets_requiredName : (required "name" textOf entries).Meets kinds (Allowed names) :=
  meets_required (by decide) fun _ hv => meets_name h hv

theorem meets_optionalName : (optional "name" "" textOf entries).Meets kinds (Allowed names) :=
  meets_optional (by decide) (fun hbreaks => absurd hbreaks (by decide)) fun _ hv => meets_name h hv

end Names

section Parts

variable (entries : Entries) {key : String}

theorem meets_requiredText (hkey : ¬Breaks key) :
    (required key textOf entries).Meets kinds fun _ => True :=
  meets_required hkey fun v _ => (meets_textOf v).any

theorem meets_requiredCount (hkey : ¬Breaks key) :
    (required key countOf entries).Meets kinds fun _ => True :=
  meets_required hkey fun v _ => meets_countOf v

theorem meets_optionalCount (hkey : ¬Breaks key) :
    (optional key 0 countOf entries).Meets kinds fun _ => True :=
  meets_optional hkey trivial fun v _ => meets_countOf v

theorem meets_identity :
    (optional "identity" none (orNull textOf) entries).Meets kinds fun _ => True :=
  meets_optional (by decide) trivial fun v _ => (meets_orNull (meets_textOf v)).any

theorem meets_scalarOf : (scalarOf entries).Meets kinds fun _ => True := by
  have hsize : (optional "size" none (orNull countOf) entries).Meets kinds fun _ => True :=
    meets_optional (by decide) trivial fun v _ => (meets_orNull (meets_countOf v)).any
  refine .seq (.seq (.seq (.map (meets_requiredText entries (by decide)) ?_) hsize)
    (meets_optionalCount entries (by decide))) (meets_optionalCount entries (by decide))
  exact fun _ _ _ _ _ _ _ _ => trivial

theorem meets_namedOf : (namedOf entries).Meets kinds fun _ => True :=
  .seq (.map (meets_requiredText entries (by decide)) fun _ _ _ _ => trivial)
    (meets_identity entries)

end Parts

theorem not_breaks_tag {tag : String} (h : tag ∈ ["primitive", "named", "pointer", "array"]) :
    ¬Breaks tag := by
  have hall : ∀ tag ∈ ["primitive", "named", "pointer", "array"], ¬Breaks tag := by decide
  exact hall tag h

theorem meets_refOf {v : Value} (h : v.Within names kinds) (room : Nat) :
    (refOf room v).Meets kinds fun _ => True := by
  induction room using Nat.strongRecOn generalizing v with
  | ind room ih =>
    fun_cases refOf room v with
    | case1 entries => exact Checked.meets_fault trivial
    | case2 entries tag htag hmem =>
      apply Checked.Meets.within _ (not_breaks_tag hmem)
      cases room with
      | zero => exact Checked.meets_fault trivial
      | succ room =>
        have hinner {key : String} {w : Value} (hw : Value.get? entries key = some w) :
            (refOf room w).Meets kinds fun _ => True :=
          ih room (Nat.lt_succ_self room) (h.entry hw)
        dsimp only
        split
        · exact meets_scalarOf entries
        · split
          · exact meets_namedOf entries
          · split
            · have htarget : (optional "target" none (orNull (refOf room)) entries).Meets kinds
                  fun _ => True :=
                meets_optional (by decide) trivial fun _ hv => (meets_orNull (hinner hv)).any
              exact .seq (.map htarget fun _ _ _ _ => trivial) (meets_optionalName h).any
            · have helem : (required "elem" (refOf room) entries).Meets kinds fun _ => True :=
                meets_required (by decide) fun _ hv => hinner hv
              exact .seq (.map helem fun _ _ _ _ => trivial)
                (meets_requiredCount entries (by decide))
    | case3 entries tag htag => exact Checked.meets_fault fun _ => h.kind tag (.here htag)
    | case4 entries tag _ htag =>
      refine Checked.meets_fault fun hbreaks => h.kind tag.plain (.here ?_)
      rw [htag, ← Value.text_of_breaks_plain hbreaks]
    | case5 => exact Checked.meets_fault trivial

theorem meets_typeOf {entries : Entries} (h : (Value.table entries).Within names kinds) :
    (typeOf entries).Meets kinds fun _ => True :=
  meets_required (by decide) fun _ hv => meets_refOf (h.entry hv) depthLimit

theorem meets_fieldOf {v : Value} (h : v.Within names kinds) :
    (fieldOf v).Meets kinds (Resolved.Ensures fun field => Allowed names field.name) := by
  refine meets_tableOf h (by decide) fun entries h => ?_
  refine .seq (.map (meets_optionalName h) ?_) (meets_typeOf h)
  intro name hname type _
  cases type with
  | ok ref => exact hname
  | error cause => trivial

theorem meets_paramOf {v : Value} (h : v.Within names kinds) :
    (paramOf v).Meets kinds fun _ => True := by
  refine meets_tableOf h (by decide) fun entries h => ?_
  exact .seq (.map (meets_optionalName h) fun _ _ _ _ => trivial) (meets_typeOf h)

structure Named (names : String → Prop) (t : TypeDef) : Prop where
  name : Allowed names t.name
  field : ∀ field ∈ t.fields, Allowed names field.name

theorem meets_typeDefOf {v : Value} (h : v.Within names kinds) :
    (typeDefOf v).Meets kinds (Resolved.Ensures (Named names)) := by
  refine meets_tableOf h (by decide) fun entries h => ?_
  have hfields : (optional "fields" [] (listOf fieldOf) entries).Meets kinds fun fields =>
      ∀ field ∈ fields, Resolved.Ensures (fun field => Allowed names field.name) field :=
    meets_optional (by decide) (List.forall_mem_nil _) fun v hv =>
      meets_listOf (h.entry hv) fun _ => meets_fieldOf
  refine .seq (.seq (.map (meets_requiredName h) ?_) (meets_identity entries)) hfields
  intro name hname identity _ fields hfields
  apply (Resolved.ensures_mapM hfields).bind
  intro fields hfields
  exact ⟨hname, hfields⟩

theorem meets_positionOf {v : Value} (h : v.Within names kinds) :
    (positionOf v).Meets kinds fun _ => True := by
  refine meets_tableOf h (by decide) fun entries _ => ?_
  refine .seq (.seq (.map (meets_requiredText entries (by decide)) ?_)
    (meets_requiredCount entries (by decide))) (meets_requiredCount entries (by decide))
  exact fun _ _ _ _ _ _ => trivial

theorem meets_signatureOf {v : Value} (h : v.Within names kinds) :
    (signatureOf v).Meets kinds fun _ => True := by
  refine meets_tableOf h (by decide) fun entries h => ?_
  have hposition : (required "position" positionOf entries).Meets kinds fun _ => True :=
    meets_required (by decide) fun _ hv => meets_positionOf (h.entry hv)
  have hreceiver : (optional "receiver" none (orNull paramOf) entries).Meets kinds
      fun _ => True :=
    meets_optional (by decide) trivial fun _ hv => (meets_orNull (meets_paramOf (h.entry hv))).any
  have hparams (key : String) (hkey : ¬Breaks key) :
      (optional key [] (listOf paramOf) entries).Meets kinds fun _ => True :=
    meets_optional hkey trivial fun _ hv =>
      (meets_listOf (h.entry hv) fun _ => meets_paramOf).any
  have hdisplay : (optional "display" "" textOf entries).Meets kinds fun _ => True :=
    meets_optional (by decide) trivial fun v _ => (meets_textOf v).any
  refine .seq (.seq (.seq (.seq (.seq (.map (meets_requiredName h) ?_) hposition) hreceiver)
    (hparams "params" (by decide))) (hparams "results" (by decide))) hdisplay
  exact fun _ _ _ _ _ _ _ _ _ _ _ _ => trivial

structure NamedPackage (names : String → Prop) (p : Package) : Prop where
  name : Allowed names p.name
  types : ∀ t ∈ p.types, Named names t
  imported : ∀ t ∈ p.imported, Named names t

theorem meets_packageOf {v : Value} (h : v.Within names kinds) :
    (packageOf v).Meets kinds (Resolved.Ensures (NamedPackage names)) := by
  refine meets_tableOf h (by decide) fun entries h => ?_
  have htypes (key : String) (hkey : ¬Breaks key) :
      (optional key [] (listOf typeDefOf) entries).Meets kinds fun types =>
        ∀ t ∈ types, Resolved.Ensures (Named names) t :=
    meets_optional hkey (List.forall_mem_nil _) fun _ hv =>
      meets_listOf (h.entry hv) fun _ => meets_typeDefOf
  have hsignatures : (optional "functions" [] (listOf signatureOf) entries).Meets kinds
      fun _ => True :=
    meets_optional (by decide) trivial fun _ hv =>
      (meets_listOf (h.entry hv) fun _ => meets_signatureOf).any
  refine .seq (.seq (.seq (.map (meets_optionalName h) ?_) (htypes "types" (by decide)))
    (htypes "imported_types" (by decide))) hsignatures
  intro name hname types htypes imported himported signatures _
  apply (Resolved.ensures_mapM htypes).bind
  intro types htypes
  cases signatures.mapM id with
  | error cause => trivial
  | ok signatures =>
    apply (Resolved.ensures_mapM himported).bind
    intro imported himported
    exact ⟨hname, htypes, himported⟩

theorem meets_documentOf {v : Value} (h : v.Within names kinds) :
    (documentOf v).Meets kinds fun packages =>
      ∀ p ∈ packages, Resolved.Ensures (NamedPackage names) p := by
  refine meets_tableOf h (by decide) fun entries h => ?_
  exact meets_required (by decide) fun _ hv => meets_listOf (h.entry hv) fun _ => meets_packageOf

theorem says_of_normalize {v : Value} {key text : String} (h : (normalize v).Says key text) :
    v.Says key text := by
  unfold normalize at h
  split at h
  · rename_i entries
    split at h
    · exact h
    · have honly {other : String} {w : Value}
          (hget : Value.get? [("units", .list [.table entries])] other = some w) :
          w = .list [.table entries] := by
        by_cases hkey : other = "units"
        · rw [hkey, Value.get?_cons_self] at hget
          exact (Option.some.inj hget).symm
        · rw [Value.get?_cons_of_ne hkey] at hget
          cases hget
      cases h with
      | here hget => cases honly hget
      | under hget hv =>
        cases honly hget
        cases hv with
        | item hmem hv =>
          cases List.mem_singleton.mp hmem
          exact hv
  · exact h

theorem NamedPackage.allowed_label {p : Package} (h : NamedPackage names p) :
    Allowed names p.label := by
  intro hbreaks
  have hlabel : p.label = p.name := by
    unfold Package.label at hbreaks ⊢
    split at hbreaks
    · exact absurd hbreaks (by decide)
    · rename_i hname
      rw [if_neg hname]
  rw [hlabel] at hbreaks ⊢
  exact h.name hbreaks

theorem NamedPackage.named {p : Package} (h : NamedPackage names p) {t : TypeDef}
    (ht : t ∈ p.imported ++ p.types) : Named names t :=
  (List.mem_append.mp ht).elim (h.imported t) (h.types t)

end Document

def GraphError.bare : GraphError → List String
  | duplicateIdentity label _ => [label]
  | unknownType label typeName fieldName _ => [label, typeName, fieldName]
  | cycle label names => label :: names

theorem GraphError.breaks_message_iff (e : GraphError) :
    Breaks e.message ↔ ∃ text ∈ e.bare, Breaks text := by
  have hunit : ¬Breaks "unit " := by decide
  cases e with
  | duplicateIdentity label identity =>
    change Breaks ("unit " ++ label ++ ": duplicate type identity " ++ quoted identity) ↔ _
    have hmid : ¬Breaks ": duplicate type identity " := by decide
    simp [breaks_append, bare, hunit, hmid, not_breaks_quoted]
  | unknownType label typeName fieldName refName =>
    change Breaks ("unit " ++ label ++ ": field " ++ typeName ++ "." ++
      (if fieldName = "" then "_" else fieldName) ++ " refers to unknown type " ++
      quoted refName) ↔ _
    have hfield : ¬Breaks ": field " := by decide
    have hdot : ¬Breaks "." := by decide
    have hrefers : ¬Breaks " refers to unknown type " := by decide
    have hname : Breaks (if fieldName = "" then "_" else fieldName) ↔ Breaks fieldName := by
      split
      · rename_i h
        subst h
        decide
      · rfl
    simp [breaks_append, bare, hunit, hfield, hdot, hrefers, hname, not_breaks_quoted, or_assoc]
  | cycle label names =>
    change Breaks ("unit " ++ label ++ ": invalid recursive type " ++ " -> ".intercalate names) ↔ _
    have hmid : ¬Breaks ": invalid recursive type " := by decide
    have harrow : ¬Breaks " -> " := by decide
    simp [breaks_append, breaks_intercalate harrow, bare, hunit, hmid]

theorem Document.NamedPackage.allowed_bare {names : String → Prop} {p : Package}
    (h : NamedPackage names p) {e : GraphError} (he : p.check = .error e) :
    ∀ text ∈ e.bare, Allowed names text := by
  rw [Package.check_eq] at he
  split at he
  · cases he
    simpa only [GraphError.bare, List.forall_mem_singleton] using h.allowed_label
  · split at he
    · rename_i t field name hunknown
      cases he
      obtain ⟨hmem, hfield, -⟩ := Index.firstUnknown_eq_some hunknown
      have ht := h.named hmem
      rw [GraphError.bare, List.forall_mem_cons, List.forall_mem_cons, List.forall_mem_singleton]
      exact ⟨h.allowed_label, ht.name, ht.field field hfield⟩
    · split at he
      · rename_i cycle _
        cases he
        refine List.forall_mem_cons.mpr ⟨h.allowed_label, fun text htext => ?_⟩
        obtain ⟨identity, -, hfound⟩ := List.mem_filterMap.mp htext
        obtain ⟨t, hfind, rfl⟩ := Option.map_eq_some_iff.mp hfound
        exact (h.named (Package.mem_definitions_index.mp (Index.mem_of_find? hfind))).name
      · cases he

def LoadError.bare : LoadError → List String
  | invalid _ first _ => first.cause.bare
  | sizeless _ => []
  | graph cause => cause.bare

theorem Document.accept_eq_error {r : Resolved Package} {e : LoadError}
    (h : accept r = .error e) :
    (∃ cause, e = .sizeless cause) ∨
      ∃ p cause, r = .ok p ∧ p.check = .error cause ∧ e = .graph cause := by
  cases r with
  | error cause =>
    cases h
    exact .inl ⟨cause, rfl⟩
  | ok p =>
    have haccept : accept (.ok p) = p.check.mapError .graph >>= fun _ => .ok p := rfl
    rw [haccept] at h
    cases hcheck : p.check with
    | error cause =>
      rw [hcheck] at h
      cases h
      exact .inr ⟨p, cause, rfl, hcheck, rfl⟩
    | ok =>
      rw [hcheck] at h
      cases h

theorem LoadError.spec_of_accept {names : String → Prop} {r : Document.Resolved Package}
    (hnamed : Document.Resolved.Ensures (Document.NamedPackage names) r) {e : LoadError}
    (h : Document.accept r = .error e) :
    (Breaks e.message ↔ ∃ text ∈ e.bare, Breaks text) ∧
    ∀ text ∈ e.bare, Breaks text → names text := by
  obtain ⟨cause, rfl⟩ | ⟨p, cause, rfl, hcheck, rfl⟩ := Document.accept_eq_error h
  · refine ⟨?_, List.forall_mem_nil _⟩
    change Breaks ("primitive " ++ quoted cause.name ++ " has no size and is not a basic type") ↔ _
    have hopen : ¬Breaks "primitive " := by decide
    have hclose : ¬Breaks " has no size and is not a basic type" :=
      mt breaks_ofList.mp (by decide)
    simp [breaks_append, bare, hopen, hclose, not_breaks_quoted]
  · exact ⟨cause.breaks_message_iff, Document.NamedPackage.allowed_bare hnamed hcheck⟩

theorem LoadError.breaks_message_invalid_iff {source : String} (hsource : ¬Breaks source)
    {kinds : String → Prop} {first : Document.Fault} (hfirst : first.Plain kinds) (others : Nat) :
    Breaks (invalid source first others).message ↔ ∃ text ∈ first.cause.bare, Breaks text := by
  change Breaks ("invalid graph document " ++ source ++ ": " ++ first.message ++
    (if others = 0 then "" else " (and " ++ toString others ++ " more)")) ↔ _
  have hopen : ¬Breaks "invalid graph document " := by decide
  have hcolon : ¬Breaks ": " := by decide
  have hmore : ¬Breaks (if others = 0 then "" else " (and " ++ toString others ++ " more)") := by
    split
    · decide
    · have hand : ¬Breaks " (and " := by decide
      have hclose : ¬Breaks " more)" := by decide
      simp only [breaks_append, hand, hclose, not_breaks_toString_nat, or_self, not_false_iff]
  simp only [breaks_append, hopen, hsource, hcolon, hmore, hfirst.breaks_message_iff, false_or,
    or_false]

/-- The message of a document that cannot be loaded breaks a line exactly if a text stands in it
that is shown as it is and breaks a line, and such a text is a name or a kind in the document. So
it is one line whenever no name and no kind breaks a line, whatever else the document holds. -/
theorem load_messages_break_only_in_names_and_kinds {source : String} {v : Value} {e : LoadError}
    (hsource : ¬Breaks source) (h : loadPackages source v = .error e) :
    (Breaks e.message ↔ ∃ text ∈ e.bare, Breaks text) ∧
    ∀ text ∈ e.bare, Breaks text → v.Says "name" text ∨ v.Says "kind" text := by
  have hwithin : (Document.normalize v).Within (v.Says "name") (v.Says "kind") :=
    ⟨fun _ => Document.says_of_normalize, fun _ => Document.says_of_normalize⟩
  have hmeets := Document.meets_documentOf hwithin
  unfold loadPackages at h
  cases hdocument : Document.documentOf (Document.normalize v) with
  | valid packages =>
    rw [hdocument] at h hmeets
    obtain ⟨r, hmem, haccept⟩ := exists_mem_of_mapM_eq_error h
    obtain ⟨hbreaks, hnames⟩ := LoadError.spec_of_accept (hmeets r hmem) haccept
    exact ⟨hbreaks, fun text htext htextBreaks => .inl (hnames text htext htextBreaks)⟩
  | faulty first rest =>
    rw [hdocument] at h hmeets
    cases h
    refine ⟨LoadError.breaks_message_invalid_iff hsource hmeets rest.length, ?_⟩
    intro text htext htextBreaks
    exact .inr (Document.Fault.Plain.kind_of_breaks hmeets htext htextBreaks)

def packageDefining (name : String) (types : List Value) : Value :=
  .table [("name", .text name), ("types", .list types)]

def emptyType (identity : String) : Value :=
  .table [("name", .text "T"), ("identity", .text identity)]

/-- A line break in an identity is no line break in the message. -/
theorem load_messages_break_only_in_names_and_kinds_twins :
    ∃ e, loadPackages "stdin" (packageDefining "p" [emptyType "a\nb", emptyType "a\nb"]) =
      .error e ∧ ¬Breaks e.message := by
  have hload : loadPackages "stdin" (packageDefining "p" [emptyType "a\nb", emptyType "a\nb"]) =
      .error (.graph (.duplicateIdentity "p" "a\nb")) := rfl
  refine ⟨_, hload, ?_⟩
  rw [(load_messages_break_only_in_names_and_kinds (by decide) hload).1]
  decide

/-- The name of a package and the kind of a reference are shown as they are, with their line
breaks. -/
theorem load_messages_break_in_name_and_kind :
    (loadPackages "stdin" (packageDefining "a\nb" [emptyType "T", emptyType "T"])).mapError
      (·.message) = .error "unit a\nb: duplicate type identity 'T'" ∧
    ∃ e, loadPackages "stdin" (packageDefining "p" [.table [("name", .text "T"),
      ("fields", .list [.table [("type", .table [("kind", .text "a\nb")])]])]]) = .error e ∧
      Breaks e.message := by
  have hname : loadPackages "stdin" (packageDefining "a\nb" [emptyType "T", emptyType "T"]) =
      .error (.graph (.duplicateIdentity "a\nb" "T")) := rfl
  have hkind : loadPackages "stdin" (packageDefining "p" [.table [("name", .text "T"),
      ("fields", .list [.table [("type", .table [("kind", .text "a\nb")])]])]]) =
      .error (.invalid "stdin" ⟨["units", "0", "types", "0", "fields", "0", "type"],
        .unknownTag "a\nb"⟩ 0) := by
    rfl
  refine ⟨?_, _, hkind, ?_⟩
  · rw [hname]
    decide
  · have hplain : Document.Fault.Plain (fun _ => True)
        ⟨["units", "0", "types", "0", "fields", "0", "type"], .unknownTag "a\nb"⟩ :=
      ⟨by decide, fun _ => trivial⟩
    rw [LoadError.breaks_message_invalid_iff (by decide) hplain]
    exact ⟨"a\nb", List.mem_singleton_self _, by decide⟩

end CopyLint
