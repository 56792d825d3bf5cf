import CopyLint.Document.Writer
import CopyLint.Proofs.LoadedPackage

/-! Packages that are written with every key spelled out are read back as they were. What cannot be
written so is a reference that stands in too many others: there is no room for it when the document
is read. -/
namespace CopyLint

/-- A document has a spelling for the reference: its numbers are not negative, and an empty identity
stands only where the name is empty too. -/
def TypeRef.Writable : TypeRef → Prop
  | .scalar s => 0 ≤ s.size ∧ 0 ≤ s.align ∧ 0 ≤ s.words
  | .named identity name => identity ≠ "" ∨ identity = name
  | .pointer target _ => target.Writable
  | .rawPointer _ => True
  | .array elem length => elem.Writable ∧ 0 ≤ length
  | .unsupported => False

instance TypeRef.decidableWritable : (ref : TypeRef) → Decidable ref.Writable
  | .scalar s => inferInstanceAs (Decidable (0 ≤ s.size ∧ 0 ≤ s.align ∧ 0 ≤ s.words))
  | .named identity name => inferInstanceAs (Decidable (identity ≠ "" ∨ identity = name))
  | .pointer target _ => decidableWritable target
  | .rawPointer _ => .isTrue trivial
  | .array elem length =>
    have := decidableWritable elem
    inferInstanceAs (Decidable (elem.Writable ∧ 0 ≤ length))
  | .unsupported => .isFalse id

structure Package.Writable (p : Package) : Prop where
  refs : ∀ ref ∈ p.spelled, ref.Writable
  identities : ∀ t ∈ p.types ++ p.imported, t.identity ≠ "" ∨ t.identity = t.name
  positions : ∀ s ∈ p.signatures, 0 ≤ s.position.line ∧ 0 ≤ s.position.column

namespace Document

variable {α β : Type}

namespace Checked

@[simp] theorem pure_eq (a : α) : (pure a : Checked α) = .valid a := rfl

@[simp] theorem map_valid (f : α → β) (a : α) : f <$> valid a = .valid (f a) := rfl

@[simp] theorem seq_valid (f : α → β) (a : α) : valid f <*> valid a = .valid (f a) := rfl

@[simp] theorem within_valid (segment : String) (a : α) :
    (valid a).within segment = .valid a := rfl

section Faulty

variable (first : Fault) (rest : List Fault)

@[simp] theorem map_faulty (f : α → β) :
    f <$> (faulty first rest : Checked α) = .faulty first rest := rfl

@[simp] theorem seq_valid_faulty (f : α → β) :
    valid f <*> faulty first rest = .faulty first rest := rfl

@[simp] theorem seq_faulty_valid (a : α) :
    (faulty first rest : Checked (α → β)) <*> valid a = .faulty first rest := rfl

@[simp] theorem within_faulty (segment : String) : (faulty first rest : Checked α).within segment =
    .faulty (first.within segment) (rest.map (·.within segment)) := rfl

end Faulty

theorem each_map {check : Value → Checked β} {write : α → Value} {g : α → β} {as : List α}
    (h : ∀ a ∈ as, check (write a) = .valid (g a)) (index : Nat) :
    each check index (as.map write) = .valid (as.map g) := by
  induction as generalizing index with
  | nil => rfl
  | cons a rest ih =>
    rw [List.forall_mem_cons] at h
    simp [each, h.1, ih h.2]

end Checked

namespace Resolved

@[simp] theorem pure_eq (a : α) : (pure a : Resolved α) = .ok a := rfl

@[simp] theorem bind_ok (a : α) (f : α → Resolved β) : (.ok a : Resolved α) >>= f = f a := rfl

@[simp] theorem mapM_ok (as : List α) : as.mapM (.ok : α → Resolved α) = .ok as := by
  rw [mapM_eq_ok_map fun _ _ => rfl, List.map_id']

@[simp] theorem option_mapM_ok (found : Option α) :
    (found.map (.ok : α → Resolved α)).mapM id = .ok found := by
  cases found <;> rfl

end Resolved

section Keys

variable (check : Value → Checked α) (v : Value) (entries : Entries) {key other : String}

@[simp] theorem tableOf_table (model : String) (read : Entries → Checked α) :
    tableOf model read (.table entries) = read entries := rfl

@[simp] theorem required_cons_self (key : String) :
    required key check ((key, v) :: entries) = (check v).within key := by
  simp [required]

@[simp] theorem required_cons_of_ne (h : key ≠ other) :
    required key check ((other, v) :: entries) = required key check entries := by
  simp [required, h]

@[simp] theorem optional_cons_self (key : String) (default : α) :
    optional key default check ((key, v) :: entries) = (check v).within key := by
  simp [optional]

@[simp] theorem optional_cons_of_ne (h : key ≠ other) (default : α) :
    optional key default check ((other, v) :: entries) = optional key default check entries := by
  simp [optional, h]

end Keys

@[simp] theorem orNull_null (check : Value → Checked α) : orNull check .null = .valid none := rfl

@[simp] theorem orNull_of_ne_null (check : Value → Checked α) {v : Value} (h : v ≠ .null) :
    orNull check v = some <$> check v := by
  cases v with
  | null => exact absurd rfl h
  | bool | int | float | text | moment | list | table => rfl

theorem listOf_map {check : Value → Checked (Resolved α)} {write : α → Value} {as : List α}
    (h : ∀ a ∈ as, check (write a) = .valid (.ok a)) :
    listOf check (.list (as.map write)) = .valid (as.map .ok) :=
  Checked.each_map h 0

@[simp] theorem textOf_text (s : String) : textOf (.text s) = .valid s := rfl

theorem countOf_int {n : Int} (h : 0 ≤ n) : countOf (.int n) = .valid n := by
  have hn : ¬n < 0 := by omega
  simp [countOf, integerOf, pure, Except.pure, hn]

theorem identityOr_some {identity name : String} (h : identity ≠ "" ∨ identity = name) :
    identityOr name (some identity) = identity := by
  by_cases hempty : identity = ""
  · subst hempty
    exact (h.resolve_left (· rfl)).symm
  · simp [identityOr]

theorem toValue_ne_null {ref : TypeRef} (h : ref.Writable) : ref.toValue ≠ .null := by
  cases ref with
  | unsupported => exact h.elim
  | scalar | named | pointer | rawPointer | array => simp [TypeRef.toValue]

theorem refOf_toValue {ref : TypeRef} (h : ref.Writable) {room : Nat}
    (hroom : ref.nesting < room) : refOf room ref.toValue = .valid (.ok ref) := by
  induction room generalizing ref with
  | zero => exact absurd hroom (Nat.not_lt_zero _)
  | succ room ih =>
    cases ref with
    | scalar s =>
      simp [refOf, TypeRef.toValue, scalarOf, countOf_int h.1, countOf_int h.2.1,
        countOf_int h.2.2, resolveScalar]
    | named identity name =>
      simp [refOf, TypeRef.toValue, namedOf, identityOr_some h]
    | pointer target label =>
      have hwritable : target.Writable := h
      have htarget := ih hwritable (Nat.lt_of_succ_lt_succ hroom)
      simp [refOf, TypeRef.toValue, toValue_ne_null hwritable, htarget, pointerTo]
    | rawPointer label =>
      simp [refOf, TypeRef.toValue, pointerTo]
    | array elem length =>
      have helem := ih h.1 (Nat.lt_of_succ_lt_succ hroom)
      simp [refOf, TypeRef.toValue, helem, countOf_int h.2, arrayOf]
    | unsupported => exact h.elim

theorem fieldOf_toValue {field : Field} (h : field.type.Writable)
    (hroom : field.type.nesting < depthLimit) : fieldOf field.toValue = .valid (.ok field) := by
  simp [fieldOf, Field.toValue, typeOf, refOf_toValue h hroom]

theorem paramOf_toValue {param : Param} (h : param.type.Writable)
    (hroom : param.type.nesting < depthLimit) : paramOf param.toValue = .valid (.ok param) := by
  simp [paramOf, Param.toValue, typeOf, refOf_toValue h hroom]

theorem typeDefOf_toValue {t : TypeDef} (hidentity : t.identity ≠ "" ∨ t.identity = t.name)
    (h : ∀ ref ∈ t.spelled, ref.Writable ∧ ref.nesting < depthLimit) :
    typeDefOf t.toValue = .valid (.ok t) := by
  have hfields : listOf fieldOf (.list (t.fields.map Field.toValue)) =
      .valid (t.fields.map .ok) := by
    apply listOf_map
    intro field hfield
    obtain ⟨hwritable, hroom⟩ := h field.type (List.mem_map_of_mem hfield)
    exact fieldOf_toValue hwritable hroom
  simp [typeDefOf, TypeDef.toValue, hfields, identityOr_some hidentity]

theorem positionOf_toValue {position : Position} (hline : 0 ≤ position.line)
    (hcolumn : 0 ≤ position.column) : positionOf position.toValue = .valid position := by
  simp [positionOf, Position.toValue, countOf_int hline, countOf_int hcolumn]

theorem signatureOf_toValue {s : Signature}
    (hposition : 0 ≤ s.position.line ∧ 0 ≤ s.position.column)
    (h : ∀ ref ∈ s.spelled, ref.Writable ∧ ref.nesting < depthLimit) :
    signatureOf s.toValue = .valid (.ok s) := by
  have hparam : ∀ param ∈ s.receiver.toList ++ s.params ++ s.results,
      paramOf param.toValue = .valid (.ok param) := by
    intro param hmem
    obtain ⟨hwritable, hroom⟩ := h param.type (List.mem_map_of_mem hmem)
    exact paramOf_toValue hwritable hroom
  simp only [List.forall_mem_append, Option.mem_toList] at hparam
  obtain ⟨⟨hreceiver, hparams⟩, hresults⟩ := hparam
  have hreceiver : orNull paramOf ((s.receiver.map Param.toValue).getD .null) =
      .valid (s.receiver.map .ok) := by
    cases hs : s.receiver with
    | none => rfl
    | some receiver =>
      have hne : receiver.toValue ≠ .null := by simp [Param.toValue]
      simp [hne, hreceiver receiver hs]
  simp [signatureOf, Signature.toValue, positionOf_toValue hposition.1 hposition.2, hreceiver,
    listOf_map hparams, listOf_map hresults]

theorem packageOf_toValue {p : Package} (h : p.Writable)
    (hroom : ∀ ref ∈ p.spelled, ref.nesting < depthLimit) :
    packageOf p.toValue = .valid (.ok p) := by
  have hrefs : ∀ ref ∈ p.spelled, ref.Writable ∧ ref.nesting < depthLimit := fun ref hmem =>
    ⟨h.refs ref hmem, hroom ref hmem⟩
  simp only [Package.spelled, List.forall_mem_append, List.forall_mem_flatMap] at hrefs
  obtain ⟨⟨htypes, himported⟩, hsignatures⟩ := hrefs
  have hidentities := h.identities
  rw [List.forall_mem_append] at hidentities
  have htypes : listOf typeDefOf (.list (p.types.map TypeDef.toValue)) =
      .valid (p.types.map .ok) :=
    listOf_map fun t ht => typeDefOf_toValue (hidentities.1 t ht) (htypes t ht)
  have himported : listOf typeDefOf (.list (p.imported.map TypeDef.toValue)) =
      .valid (p.imported.map .ok) :=
    listOf_map fun t ht => typeDefOf_toValue (hidentities.2 t ht) (himported t ht)
  have hsignatures : listOf signatureOf (.list (p.signatures.map Signature.toValue)) =
      .valid (p.signatures.map .ok) :=
    listOf_map fun s hs => signatureOf_toValue (h.positions s hs) (hsignatures s hs)
  simp [packageOf, Package.toValue, htypes, himported, hsignatures]

theorem documentOf_ofPackages {packages : List Package} (h : ∀ p ∈ packages, p.Writable)
    (hroom : ∀ p ∈ packages, ∀ ref ∈ p.spelled, ref.nesting < depthLimit) :
    documentOf (ofPackages packages) = .valid (packages.map .ok) := by
  have hpackages : listOf packageOf (.list (packages.map Package.toValue)) =
      .valid (packages.map .ok) :=
    listOf_map fun p hp => packageOf_toValue (h p hp) (hroom p hp)
  simp [documentOf, ofPackages, hpackages]

theorem normalize_ofPackages (packages : List Package) :
    normalize (ofPackages packages) = ofPackages packages := by
  simp [normalize, ofPackages]

theorem normalize_toValue (p : Package) : normalize p.toValue = ofPackages [p] := by
  simp [normalize, Package.toValue, ofPackages]

end Document

theorem loadPackages_toValue (source : String) (p : Package) :
    loadPackages source p.toValue = loadPackages source (Document.ofPackages [p]) := by
  unfold loadPackages
  rw [Document.normalize_toValue, Document.normalize_ofPackages]

theorem loadPackages_ofPackages_iff {packages : List Package}
    (hcheck : ∀ p ∈ packages, p.check = .ok ()) (h : ∀ p ∈ packages, p.Writable)
    (source : String) :
    loadPackages source (Document.ofPackages packages) = .ok packages ↔
      ∀ p ∈ packages, ∀ ref ∈ p.spelled, ref.nesting < Document.depthLimit := by
  constructor
  · intro hload p hp ref href
    exact ((admitted_of_loadPackages hload hp).2 ref href).nesting_lt
  · intro hroom
    apply loadPackages_eq_ok _ hcheck
    rw [Document.normalize_ofPackages, Document.documentOf_ofPackages h hroom]

/-- Packages that pass their check and have a spelling are restored from what is written, each alone
and all of them in order, exactly if there is room for every reference. -/
theorem written_packages_are_restored (source : String) (packages : List Package)
    (hcheck : ∀ p ∈ packages, p.check = .ok ()) (h : ∀ p ∈ packages, p.Writable) :
    (loadPackages source (Document.ofPackages packages) = .ok packages ↔
      ∀ p ∈ packages, ∀ ref ∈ p.spelled, ref.nesting < Document.depthLimit) ∧
    ∀ p ∈ packages, (loadPackages source p.toValue = .ok [p] ↔
      ∀ ref ∈ p.spelled, ref.nesting < Document.depthLimit) := by
  refine ⟨loadPackages_ofPackages_iff hcheck h source, fun p hp => ?_⟩
  have hcheck : ∀ q ∈ [p], q.check = .ok () := List.forall_mem_singleton.mpr (hcheck p hp)
  have h : ∀ q ∈ [p], q.Writable := List.forall_mem_singleton.mpr (h p hp)
  rw [loadPackages_toValue, loadPackages_ofPackages_iff hcheck h, List.forall_mem_singleton]

/-- A scalar of a basic name that takes no room, a pointer to nothing and a struct that goes by
another identity are what a reader may take for something else. -/
def oddPackage : Package where
  name := "odd"
  types := [⟨"odd.Slot", "Slot", [⟨"", .scalar { name := "int" }⟩,
    ⟨"any", .rawPointer "interface"⟩, ⟨"next", .pointer (.named "odd.Slot" "Slot") ""⟩]⟩]
  imported := [⟨"", "", [⟨"slots", .array (.named "odd.Slot" "Slot") 0⟩]⟩]
  signatures := [{
    name := "Take", position := ⟨"odd.go", 0, 0⟩, receiver := some ⟨"", .named "" ""⟩,
    params := [⟨"n", .array (.pointer (.named "x.Gone" "Gone") "*Gone") 2⟩]
    results := [⟨"", .named "odd.Slot" "Slot"⟩] }]

theorem written_packages_are_restored_odd :
    (∀ p ∈ [oddPackage, { name := "" }], p.check = .ok ()) ∧
    (∀ p ∈ [oddPackage, { name := "" }], p.Writable) ∧
    loadPackages "" (Document.ofPackages [oddPackage, { name := "" }]) =
      .ok [oddPackage, { name := "" }] ∧
    loadPackages "" oddPackage.toValue = .ok [oddPackage] := by
  have hodd : oddPackage.check = .ok () :=
    (Package.check_eq_ok_iff_layouts {} (by decide) (by decide)).mpr (by decide)
  have hempty : Package.check { name := "" } = .ok () :=
    (Package.check_eq_ok_iff_layouts {} (by decide) (by decide)).mpr (by decide)
  have hcheck : ∀ p ∈ [oddPackage, { name := "" }], p.check = .ok () := by
    simp [hodd, hempty]
  have h : ∀ p ∈ [oddPackage, { name := "" }], p.Writable := by
    simp only [List.forall_mem_cons]
    exact ⟨⟨by decide, by decide, by decide⟩, ⟨by decide, by decide, by decide⟩, nofun⟩
  obtain ⟨hall, halone⟩ := written_packages_are_restored "" _ hcheck h
  exact ⟨hcheck, h, hall.mpr (by decide), (halone oddPackage (by simp)).mpr (by decide)⟩

def TypeRef.boxes : Nat → TypeRef
  | 0 => .scalar { name := "byte", size := 1 }
  | n + 1 => .array (boxes n) 1

def crate (type : TypeRef) : Package where
  name := "crate"
  types := [⟨"Crate", "Crate", [⟨"inner", type⟩]⟩]

namespace Document

theorem refOf_boxes (room : Nat) :
    ∃ location, refOf room (TypeRef.boxes room).toValue = .faulty ⟨location, .tooDeep⟩ [] := by
  induction room with
  | zero => exact ⟨_, rfl⟩
  | succ room ih =>
    obtain ⟨location, helem⟩ := ih
    refine ⟨"array" :: "elem" :: location, ?_⟩
    simp [refOf, TypeRef.boxes, TypeRef.toValue, helem, countOf_int, Fault.within]

theorem documentOf_crate {type : TypeRef} {fault : Fault}
    (h : refOf depthLimit type.toValue = .faulty fault []) :
    ∃ location, documentOf (ofPackages [crate type]) = .faulty ⟨location, fault.cause⟩ [] := by
  have hfield : fieldOf (Field.toValue ⟨"inner", type⟩) = .faulty (fault.within "type") [] := by
    simp [fieldOf, Field.toValue, typeOf, h]
  have hzero : Nat.repr 0 = "0" := rfl
  refine ⟨["units", "0", "types", "0", "fields", "0", "type"] ++ fault.location, ?_⟩
  simp [documentOf, ofPackages, packageOf, Package.toValue, crate, typeDefOf, TypeDef.toValue,
    listOf, Checked.each, hfield, hzero, Fault.within]

end Document

/-- A byte that stands in 253 arrays has a layout and a spelling, and no document can hold it. -/
theorem crate_is_refused :
    (crate (.boxes 253)).check = .ok () ∧ (crate (.boxes 253)).Writable ∧
    ∃ location, loadPackages "" (crate (.boxes 253)).toValue =
      .error (.invalid "" ⟨location, .tooDeep⟩ 0) := by
  refine ⟨?_, ⟨by decide +kernel, by decide, by decide⟩, ?_⟩
  · exact (Package.check_eq_ok_iff_layouts {} (by decide +kernel) (by decide)).mpr
      (by decide +kernel)
  · obtain ⟨_, href⟩ := Document.refOf_boxes 253
    obtain ⟨location, hread⟩ := Document.documentOf_crate href
    refine ⟨location, ?_⟩
    rw [loadPackages_toValue, loadPackages, Document.normalize_ofPackages, hread]
    rfl

end CopyLint
