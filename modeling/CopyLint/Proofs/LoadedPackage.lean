import CopyLint.Document.Load
import CopyLint.Proofs.Attempts
import CopyLint.Proofs.GraphCheck

/-! What holds of every package that was loaded from a document: its graph passes the check, no
reference is missing or nested too deep, and no number in a reference is negative. The shape of a
document is put together from a few combinators, and each of them passes a property of the parts
on. -/
namespace CopyLint

/-- Every part of the reference is there, and its sizes and lengths are not negative. -/
def TypeRef.Valid : TypeRef → Prop
  | .scalar s => 0 ≤ s.size ∧ 0 ≤ s.align ∧ 0 ≤ s.words
  | .named _ _ | .rawPointer _ => True
  | .pointer target _ => target.Valid
  | .array elem length => elem.Valid ∧ 0 ≤ length
  | .unsupported => False

theorem TypeRef.Valid.supported {ref : TypeRef} (h : ref.Valid) : ref.Supported := by
  induction ref with
  | scalar | named | rawPointer => trivial
  | pointer target label ih => exact ih h
  | array elem length ih => exact ih h.1
  | unsupported => exact h

def TypeDef.Valid (t : TypeDef) : Prop :=
  ∀ field ∈ t.fields, field.type.Valid

def Package.Valid (p : Package) : Prop :=
  ∀ t ∈ p.types ++ p.imported, t.Valid

/-- How many pointers and arrays the innermost reference stands in. -/
def TypeRef.nesting : TypeRef → Nat
  | .pointer target _ => target.nesting + 1
  | .array elem _ => elem.nesting + 1
  | _ => 0

structure TypeRef.Admitted (room : Nat) (ref : TypeRef) : Prop where
  valid : ref.Valid
  nesting_lt : ref.nesting < room

def TypeDef.spelled (t : TypeDef) : List TypeRef :=
  t.fields.map (·.type)

def Signature.spelled (s : Signature) : List TypeRef :=
  (s.receiver.toList ++ s.params ++ s.results).map (·.type)

/-- The references that the package spells, in structs and in signatures. -/
def Package.spelled (p : Package) : List TypeRef :=
  (p.types ++ p.imported).flatMap TypeDef.spelled ++ p.signatures.flatMap Signature.spelled

theorem Package.Valid.supported {p : Package} (h : p.Valid) : p.Supported :=
  fun t hmem field hfield => (h t hmem field hfield).supported

namespace Document

variable {α β : Type} {P : α → Prop} {Q : β → Prop}

namespace Checked

def Ensures (P : α → Prop) : Checked α → Prop
  | .valid a => P a
  | .faulty _ _ => True

theorem ensures_true (c : Checked α) : c.Ensures fun _ => True := by
  cases c <;> trivial

theorem Ensures.map {c : Checked α} {f : α → β} (hc : c.Ensures P) (hf : ∀ a, P a → Q (f a)) :
    (f <$> c).Ensures Q := by
  cases c with
  | valid a => exact hf a hc
  | faulty first rest => trivial

theorem Ensures.seq {f : Checked (α → β)} {c : Checked α}
    (hf : f.Ensures fun g => ∀ a, P a → Q (g a)) (hc : c.Ensures P) : (f <*> c).Ensures Q := by
  cases f with
  | valid g =>
    cases c with
    | valid a => exact hf a hc
    | faulty first rest => trivial
  | faulty first rest => cases c <;> trivial

theorem Ensures.within {c : Checked α} (hc : c.Ensures P) (segment : String) :
    (c.within segment).Ensures P := by
  cases c with
  | valid a => exact hc
  | faulty first rest => trivial

theorem ensures_each {check : α → Checked β} (hcheck : ∀ a, (check a).Ensures Q)
    (index : Nat) (as : List α) : (each check index as).Ensures fun bs => ∀ b ∈ bs, Q b := by
  induction as generalizing index with
  | nil => exact List.forall_mem_nil _
  | cons a rest ih =>
    refine .seq (.map ((hcheck a).within _) ?_) (ih (index + 1))
    intro b hb bs hbs
    exact List.forall_mem_cons.mpr ⟨hb, hbs⟩

end Checked

def Resolved.Ensures (P : α → Prop) : Resolved α → Prop
  | .ok a => P a
  | .error _ => True

theorem Resolved.Ensures.bind {r : Resolved α} {f : α → Resolved β} (hr : Resolved.Ensures P r)
    (hf : ∀ a, P a → Resolved.Ensures Q (f a)) : Resolved.Ensures Q (r >>= f) := by
  cases r with
  | ok a => exact hf a hr
  | error cause => trivial

theorem Resolved.ensures_mapM {parts : List (Resolved α)}
    (h : ∀ part ∈ parts, Resolved.Ensures P part) :
    Resolved.Ensures (fun as => ∀ a ∈ as, P a) (parts.mapM id) := by
  induction parts with
  | nil => exact List.forall_mem_nil _
  | cons part rest ih =>
    rw [List.mapM_cons]
    rw [List.forall_mem_cons] at h
    apply h.1.bind
    intro a ha
    apply (ih h.2).bind
    intro as has
    exact List.forall_mem_cons.mpr ⟨ha, has⟩

theorem Resolved.ensures_option_mapM {part : Option (Resolved α)}
    (h : ∀ r ∈ part, Resolved.Ensures P r) :
    Resolved.Ensures (fun found => ∀ a ∈ found, P a) (part.mapM id) := by
  cases part with
  | none => exact nofun
  | some r =>
    apply (h r rfl).bind
    intro a ha b hb
    cases hb
    exact ha

section Combinators

variable {check : Value → Checked α}

theorem ensures_orNull (hcheck : ∀ v, (check v).Ensures P) (v : Value) :
    (orNull check v).Ensures fun found => ∀ a ∈ found, P a := by
  unfold orNull
  split
  · exact nofun
  · apply (hcheck v).map
    intro a ha b hb
    cases hb
    exact ha

theorem ensures_listOf (hcheck : ∀ v, (check v).Ensures P) (v : Value) :
    (listOf check v).Ensures fun found => ∀ a ∈ found, P a := by
  unfold listOf
  split
  · exact Checked.ensures_each hcheck 0 _
  · trivial

theorem ensures_tableOf {read : Entries → Checked α} (hread : ∀ entries, (read entries).Ensures P)
    (model : String) (v : Value) : (tableOf model read v).Ensures P := by
  unfold tableOf
  split
  · exact hread _
  · trivial

theorem ensures_required (hcheck : ∀ v, (check v).Ensures P) (key : String) (entries : Entries) :
    (required key check entries).Ensures P := by
  unfold required
  apply Checked.Ensures.within
  split
  · exact hcheck _
  · trivial

theorem ensures_optional (hcheck : ∀ v, (check v).Ensures P) {default : α} (hdefault : P default)
    (key : String) (entries : Entries) : (optional key default check entries).Ensures P := by
  unfold optional
  split
  · exact (hcheck _).within key
  · exact hdefault

theorem ensures_optional_orNull (hcheck : ∀ v, (check v).Ensures P) (key : String)
    (entries : Entries) :
    (optional key none (orNull check) entries).Ensures fun found => ∀ a ∈ found, P a := by
  apply ensures_optional (ensures_orNull hcheck)
  simp

theorem ensures_optional_listOf (hcheck : ∀ v, (check v).Ensures P) (key : String)
    (entries : Entries) :
    (optional key [] (listOf check) entries).Ensures fun found => ∀ a ∈ found, P a := by
  apply ensures_optional (ensures_listOf hcheck)
  simp

end Combinators

theorem ensures_countOf (v : Value) : (countOf v).Ensures fun n => 0 ≤ n := by
  unfold countOf
  split
  · split
    · trivial
    · rename_i n _ h
      exact Int.not_lt.mp h
  · trivial

theorem nonneg_of_basicScalar? {name : String} {s : Scalar} (h : basicScalar? name = some s) :
    0 ≤ s.size ∧ 0 ≤ s.align ∧ 0 ≤ s.words := by
  have hall : ∀ s ∈ basicScalars, 0 ≤ s.size ∧ 0 ≤ s.align ∧ 0 ≤ s.words := by decide
  exact hall s (List.mem_of_find?_eq_some h)

theorem ensures_resolveScalar (room : Nat) (name : String) {size : Option Int}
    {align words : Int} (hsize : ∀ n ∈ size, 0 ≤ n) (halign : 0 ≤ align) (hwords : 0 ≤ words) :
    Resolved.Ensures (TypeRef.Admitted (room + 1)) (resolveScalar name size align words) := by
  unfold resolveScalar
  split
  · split
    · split
      · rename_i hbasic
        exact ⟨nonneg_of_basicScalar? hbasic, Nat.succ_pos room⟩
      · trivial
    · exact ⟨⟨Int.le_refl 0, halign, hwords⟩, Nat.succ_pos room⟩
  · exact ⟨⟨hsize _ rfl, halign, hwords⟩, Nat.succ_pos room⟩

theorem ensures_scalarOf (room : Nat) (entries : Entries) :
    (scalarOf entries).Ensures (Resolved.Ensures (TypeRef.Admitted (room + 1))) := by
  have hsize := ensures_optional_orNull ensures_countOf "size" entries
  have halign := ensures_optional ensures_countOf (Int.le_refl 0) "align" entries
  have hwords := ensures_optional ensures_countOf (Int.le_refl 0) "words" entries
  refine .seq (.seq (.seq (.map (Checked.ensures_true _) ?_) hsize) halign) hwords
  intro name _ size hsize align halign words hwords
  exact ensures_resolveScalar room name hsize halign hwords

theorem ensures_namedOf (room : Nat) (entries : Entries) :
    (namedOf entries).Ensures (Resolved.Ensures (TypeRef.Admitted (room + 1))) := by
  refine .seq (.map (Checked.ensures_true _) ?_) (Checked.ensures_true _)
  intro name _ identity _
  exact ⟨trivial, Nat.succ_pos room⟩

theorem ensures_refOf (room : Nat) (v : Value) :
    (refOf room v).Ensures (Resolved.Ensures (TypeRef.Admitted room)) := by
  induction room generalizing v with
  | zero =>
    unfold refOf
    repeat' split
    all_goals trivial
  | succ room ih =>
    unfold refOf
    split
    · split
      · trivial
      · split
        · apply Checked.Ensures.within
          dsimp only
          split
          · exact ensures_scalarOf room _
          · split
            · exact ensures_namedOf room _
            · split
              · have htarget := ensures_optional_orNull ih "target"
                refine .seq (.map (htarget _) ?_) (Checked.ensures_true _)
                intro target htarget label _
                cases target with
                | none => exact ⟨trivial, Nat.succ_pos room⟩
                | some target =>
                  apply (htarget target rfl).bind
                  intro ref href
                  exact ⟨href.valid, Nat.succ_lt_succ href.nesting_lt⟩
              · have helem := ensures_required ih "elem"
                have hlength := ensures_required ensures_countOf "length"
                refine .seq (.map (helem _) ?_) (hlength _)
                intro elem helem length hlength
                apply helem.bind
                intro ref href
                exact ⟨⟨href.valid, hlength⟩, Nat.succ_lt_succ href.nesting_lt⟩
        · trivial
      · trivial
    · trivial

theorem ensures_fieldOf (v : Value) :
    (fieldOf v).Ensures (Resolved.Ensures fun field => field.type.Admitted depthLimit) := by
  refine ensures_tableOf (fun entries => ?_) "FieldDTO" v
  have htype := ensures_required (ensures_refOf depthLimit) "type" entries
  refine .seq (.map (Checked.ensures_true _) ?_) htype
  intro name _ type htype
  exact htype.bind fun _ href => href

theorem ensures_paramOf (v : Value) :
    (paramOf v).Ensures (Resolved.Ensures fun param => param.type.Admitted depthLimit) := by
  refine ensures_tableOf (fun entries => ?_) "ParamDTO" v
  have htype := ensures_required (ensures_refOf depthLimit) "type" entries
  refine .seq (.map (Checked.ensures_true _) ?_) htype
  intro name _ type htype
  exact htype.bind fun _ href => href

theorem ensures_typeDefOf (v : Value) :
    (typeDefOf v).Ensures
      (Resolved.Ensures fun t => ∀ ref ∈ t.spelled, ref.Admitted depthLimit) := by
  refine ensures_tableOf (fun entries => ?_) "TypeDefDTO" v
  have hfields := ensures_optional_listOf ensures_fieldOf "fields" entries
  refine .seq (.seq (.map (Checked.ensures_true _) ?_) (Checked.ensures_true _)) hfields
  intro name _ identity _ fields hfields
  apply (Resolved.ensures_mapM hfields).bind
  intro fields hfields
  exact List.forall_mem_map.mpr hfields

theorem ensures_signatureOf (v : Value) :
    (signatureOf v).Ensures
      (Resolved.Ensures fun s => ∀ ref ∈ s.spelled, ref.Admitted depthLimit) := by
  refine ensures_tableOf (fun entries => ?_) "FunctionDTO" v
  have hreceiver := ensures_optional_orNull ensures_paramOf "receiver" entries
  have hparams := ensures_optional_listOf ensures_paramOf "params" entries
  have hresults := ensures_optional_listOf ensures_paramOf "results" entries
  refine .seq (.seq (.seq (.seq (.seq (.map (Checked.ensures_true _) ?_) (Checked.ensures_true _))
    hreceiver) hparams) hresults) (Checked.ensures_true _)
  intro name _ position _ receiver hreceiver params hparams results hresults display _
  apply (Resolved.ensures_option_mapM hreceiver).bind
  intro receiver hreceiver
  apply (Resolved.ensures_mapM hparams).bind
  intro params hparams
  apply (Resolved.ensures_mapM hresults).bind
  intro results hresults
  have hall : ∀ param ∈ receiver.toList ++ params ++ results,
      param.type.Admitted depthLimit := by
    simp only [List.forall_mem_append, Option.mem_toList]
    exact ⟨⟨hreceiver, hparams⟩, hresults⟩
  exact List.forall_mem_map.mpr hall

theorem ensures_packageOf (v : Value) :
    (packageOf v).Ensures
      (Resolved.Ensures fun p => ∀ ref ∈ p.spelled, ref.Admitted depthLimit) := by
  refine ensures_tableOf (fun entries => ?_) "UnitDTO" v
  have htypes := ensures_optional_listOf ensures_typeDefOf "types" entries
  have himported := ensures_optional_listOf ensures_typeDefOf "imported_types" entries
  have hsignatures := ensures_optional_listOf ensures_signatureOf "functions" entries
  refine .seq (.seq (.seq (.map (Checked.ensures_true _) ?_) htypes) himported) hsignatures
  intro name _ types htypes imported himported signatures hsignatures
  apply (Resolved.ensures_mapM htypes).bind
  intro types htypes
  apply (Resolved.ensures_mapM hsignatures).bind
  intro signatures hsignatures
  apply (Resolved.ensures_mapM himported).bind
  intro imported himported
  simp only [Package.spelled, List.forall_mem_append, List.forall_mem_flatMap]
  exact ⟨⟨htypes, himported⟩, hsignatures⟩

theorem ensures_documentOf (v : Value) :
    (documentOf v).Ensures fun packages => ∀ p ∈ packages,
      Resolved.Ensures (fun p => ∀ ref ∈ p.spelled, ref.Admitted depthLimit) p :=
  ensures_tableOf (ensures_required (ensures_listOf ensures_packageOf) "units") _ v

theorem accept_eq_ok_iff {r : Resolved Package} {p : Package} :
    accept r = .ok p ↔ r = .ok p ∧ p.check = .ok () := by
  cases r with
  | error cause => exact ⟨nofun, nofun⟩
  | ok found =>
    cases hcheck : found.check with
    | error cause =>
      simp only [accept, Except.mapError, bind, Except.bind, hcheck]
      refine ⟨nofun, ?_⟩
      rintro ⟨heq, hok⟩
      cases heq
      cases hcheck.symm.trans hok
    | ok =>
      simp only [accept, Except.mapError, bind, Except.bind, hcheck]
      constructor
      · intro h
        cases h
        exact ⟨rfl, hcheck⟩
      · rintro ⟨heq, _⟩
        cases heq
        rfl

end Document

theorem loadPackages_eq_ok {v : Value} {packages : List Package}
    (hread : Document.documentOf (Document.normalize v) = .valid (packages.map .ok))
    (hcheck : ∀ p ∈ packages, p.check = .ok ()) (source : String) :
    loadPackages source v = .ok packages := by
  have haccept : ∀ p ∈ packages, (Document.accept ∘ .ok) p = .ok p := fun p hmem =>
    Document.accept_eq_ok_iff.mpr ⟨rfl, hcheck p hmem⟩
  unfold loadPackages
  rw [hread]
  dsimp only
  rw [List.mapM_map, mapM_eq_ok_map haccept, List.map_id']

/-- What is known of a package once it is loaded. -/
structure Package.Sound (p : Package) : Prop where
  checked : p.check = .ok ()
  valid : p.Valid

theorem admitted_of_loadPackages {source : String} {v : Value} {packages : List Package}
    (h : loadPackages source v = .ok packages) {p : Package} (hmem : p ∈ packages) :
    p.check = .ok () ∧ ∀ ref ∈ p.spelled, ref.Admitted Document.depthLimit := by
  unfold loadPackages at h
  have hensures := Document.ensures_documentOf (Document.normalize v)
  cases hread : Document.documentOf (Document.normalize v) with
  | faulty first rest =>
    rw [hread] at h
    cases h
  | valid resolved =>
    rw [hread] at h hensures
    obtain ⟨r, hr, haccept⟩ := exists_mem_of_mapM_eq_ok h hmem
    obtain ⟨rfl, hcheck⟩ := Document.accept_eq_ok_iff.mp haccept
    exact ⟨hcheck, hensures _ hr⟩

theorem sound_of_loadPackages {source : String} {v : Value} {packages : List Package}
    (h : loadPackages source v = .ok packages) {p : Package} (hmem : p ∈ packages) : p.Sound := by
  obtain ⟨hcheck, hrefs⟩ := admitted_of_loadPackages h hmem
  refine ⟨hcheck, fun t ht field hfield => (hrefs field.type ?_).valid⟩
  exact List.mem_append_left _ (List.mem_flatMap.mpr ⟨t, ht, List.mem_map_of_mem hfield⟩)

end CopyLint
