import CopyLint.Analysis
import CopyLint.Proofs.GraphVerdict
import CopyLint.Proofs.Lockstep

/-! What stands behind a pointer, and how the pointer is spelled, is never looked at. A package from
which both are taken away is checked, laid out and scanned in the same steps. -/
namespace CopyLint

def TypeRef.bare : TypeRef → TypeRef
  | .pointer _ _ | .rawPointer _ => .rawPointer ""
  | .array elem length => .array elem.bare length
  | .scalar s => .scalar s
  | .named identity name => .named identity name
  | .unsupported => .unsupported

def Field.bare (field : Field) : Field :=
  { field with type := field.type.bare }

def TypeDef.bare (t : TypeDef) : TypeDef :=
  { t with fields := t.fields.map Field.bare }

def Param.bare (param : Param) : Param :=
  { param with type := param.type.bare }

def Signature.bare (s : Signature) : Signature :=
  { s with
    receiver := s.receiver.map Param.bare
    params := s.params.map Param.bare
    results := s.results.map Param.bare }

/-- The package without the targets and spellings of its pointers, in structs and in signatures. -/
def Package.bare (p : Package) : Package :=
  { p with
    types := p.types.map TypeDef.bare
    imported := p.imported.map TypeDef.bare
    signatures := p.signatures.map Signature.bare }

def Index.bare (index : Index) : Index :=
  ⟨index.definitions.map TypeDef.bare⟩

@[simp] theorem Field.type_bare (field : Field) : field.bare.type = field.type.bare := rfl

@[simp] theorem Param.type_bare (param : Param) : param.bare.type = param.type.bare := rfl

@[simp] theorem TypeDef.identity_bare (t : TypeDef) : t.bare.identity = t.identity := rfl

@[simp] theorem TypeDef.name_bare (t : TypeDef) : t.bare.name = t.name := rfl

@[simp] theorem TypeDef.fields_bare (t : TypeDef) :
    t.bare.fields = t.fields.map Field.bare := rfl

/-! What is read off a reference stays the same. -/

namespace TypeRef

@[simp] theorem embedded_bare (ref : TypeRef) : ref.bare.embedded = ref.embedded := by
  induction ref with
  | array elem length ih => exact ih
  | scalar | named | pointer | rawPointer | unsupported => rfl

@[simp] theorem isWide_bare (wide : List String) (ref : TypeRef) :
    ref.bare.isWide wide = ref.isWide wide := by
  cases ref <;> rfl

end TypeRef

@[simp] theorem references_bare (fields : List Field) :
    references (fields.map Field.bare) = references fields := by
  simp [references, List.filterMap_map, Function.comp_def]

@[simp] theorem TypeDef.embeds_bare (t : TypeDef) : t.bare.embeds = t.embeds := by
  simp [TypeDef.embeds, List.filterMap_map]

namespace Index

variable (index : Index)

@[simp] theorem find?_bare (identity : String) :
    index.bare.find? identity = (index.find? identity).map TypeDef.bare := by
  simp only [find?, bare, List.find?_map]
  rfl

theorem rel_find?_bare {R : TypeDef → TypeDef → Prop} (hbare : ∀ t : TypeDef, R t t.bare)
    (identity : String) : Option.Rel R (index.find? identity) (index.bare.find? identity) := by
  rw [find?_bare]
  cases index.find? identity with
  | none => exact .none
  | some t => exact .some (hbare t)

@[simp] theorem identities_bare : index.bare.identities = index.identities := by
  simp [identities, bare, Function.comp_def]

theorem firstUnknown_bare (types : List TypeDef) :
    index.bare.firstUnknown (types.map TypeDef.bare) =
      (index.firstUnknown types).map fun (t, field, name) => (t.bare, field.bare, name) := by
  unfold firstUnknown
  rw [List.findSome?_map, List.map_findSome?]
  congr 1
  funext t
  rw [Function.comp_apply, Function.comp_apply, TypeDef.fields_bare, List.findSome?_map,
    List.map_findSome?]
  congr 1
  funext field
  simp only [Function.comp_apply, Field.type_bare, TypeRef.embedded_bare, find?_bare,
    Option.isSome_map]
  cases field.type.embedded with
  | none => rfl
  | some reference => by_cases hknown : (index.find? reference.1).isSome <;> simp [hknown]

end Index

/-! The search for cycles goes the same way. -/

namespace Search

variable (index : Index)

theorem step_bare (s : Search) : s.step index.bare = s.step index := by
  unfold step
  split
  · rfl
  · rfl
  · rename_i identity target rest below _
    rw [Index.find?_bare]
    cases index.find? target with
    | none => rfl
    | some t => simp only [Option.map_some, TypeDef.embeds_bare]

theorem run_bare (s : Search) : s.run index.bare = s.run index :=
  run_congr (step_bare index) s

theorem start_bare (done : List String) (t : TypeDef) : start done t.bare = start done t := by
  simp only [start, TypeDef.embeds_bare]
  rfl

end Search

namespace Index

variable (index : Index)

theorem cycleFrom_bare (done starts : List String) :
    index.bare.cycleFrom done starts = index.cycleFrom done starts := by
  induction starts generalizing done with
  | nil => rfl
  | cons identity rest ih =>
    simp only [cycleFrom, find?_bare]
    cases index.find? identity with
    | none => exact ih done
    | some t => simp only [Option.map_some, Search.start_bare, Search.run_bare, ih]

theorem cycle?_bare : index.bare.cycle? = index.cycle? := by
  unfold cycle?
  rw [identities_bare, cycleFrom_bare]

end Index

namespace Package

variable (p : Package)

@[simp] theorem index_bare : p.bare.index = p.index.bare := by
  simp [index, bare, Index.ofList, Index.bare]

@[simp] theorem identities_bare : p.bare.identities = p.identities := by
  simp [identities, definitions, bare, Function.comp_def]

theorem check_bare : p.bare.check = p.check := by
  have hlisted : p.bare.imported ++ p.bare.types = (p.imported ++ p.types).map TypeDef.bare := by
    simp [bare]
  rw [check_eq, check_eq, identities_bare, index_bare, hlisted, Index.firstUnknown_bare,
    Index.cycle?_bare]
  cases firstRepeat [] p.identities with
  | some identity => rfl
  | none =>
    cases p.index.firstUnknown (p.imported ++ p.types) with
    | some found => rfl
    | none =>
      cases p.index.cycle? with
      | none => rfl
      | some cycle =>
        simp only [Index.find?_bare, Option.map_map, Option.map_none, Function.comp_def]
        rfl

end Package

/-! The layout rules compute the same, from the same memo. -/

namespace Sizing

variable (config : Config) (index : Index) {layoutOf layoutOf' : TypeDef → Sizing Layout}

theorem remembered_bare (t : TypeDef) : remembered t.bare = remembered t := rfl

section

variable (hlayoutOf : ∀ t : TypeDef, layoutOf' t.bare = layoutOf t)
include hlayoutOf

theorem alignWith_bare (ref : TypeRef) :
    alignWith config index.bare layoutOf' ref.bare = alignWith config index layoutOf ref := by
  induction ref with
  | named identity name =>
    apply require_rel (index.rel_find?_bare (R := fun t t' => t' = t.bare) (fun _ => rfl) identity)
    rintro t _ rfl
    rw [hlayoutOf]
  | array elem length ih => exact ih
  | scalar | pointer | rawPointer | unsupported => rfl

theorem sizeWith_bare (ref : TypeRef) :
    sizeWith config index.bare layoutOf' ref.bare = sizeWith config index layoutOf ref := by
  induction ref with
  | named identity name =>
    apply require_rel (index.rel_find?_bare (R := fun t t' => t' = t.bare) (fun _ => rfl) identity)
    rintro t _ rfl
    rw [hlayoutOf]
  | array elem length ih =>
    simp only [TypeRef.bare, sizeWith, ih, alignWith_bare config index hlayoutOf]
  | scalar | pointer | rawPointer | unsupported => rfl

theorem fieldLayout_bare (t : TypeDef) :
    fieldLayout config index.bare layoutOf' t.bare = fieldLayout config index layoutOf t := by
  have hplace : ∀ (sofar : Layout) (field : Field),
      placeField config index.bare layoutOf' sofar field.bare =
        placeField config index layoutOf sofar field := by
    intro sofar field
    simp only [placeField, Field.type_bare, alignWith_bare config index hlayoutOf,
      sizeWith_bare config index hlayoutOf]
  simp only [fieldLayout, TypeDef.fields_bare, List.foldlM_map, hplace]

end

end Sizing

theorem TypeDef.alike_bare (config : Config) (index : Index) (t : TypeDef) :
    t.Alike config index index.bare t.bare where
  identity_eq := rfl
  name_eq := rfl
  pending_eq := by simp [Memo.firstPending]
  layout_eq := by simp [Sizing.fieldLayout_bare config index Sizing.remembered_bare]

namespace Sizing

variable (config : Config) (index : Index)

theorem layoutOf_bare (t : TypeDef) :
    layoutOf config index.bare t.bare = layoutOf config index t := by
  have hindex : index.Alike config index.bare :=
    index.rel_find?_bare (TypeDef.alike_bare config index)
  funext memo
  exact run_layoutOf_alike hindex (t.alike_bare config index) memo

theorem footprint_bare (t : TypeDef) :
    footprint config index.bare t.bare = footprint config index t := by
  unfold footprint
  rw [layoutOf_bare]

end Sizing

namespace Package

variable (config : Config) (p : Package)

theorem footprintRows_bare : p.bare.footprintRows config = p.footprintRows config := by
  unfold footprintRows
  rw [index_bare]
  simp only [bare, List.mapM_map, Function.comp_def, Sizing.footprint_bare]
  rfl

theorem classify_bare :
    classify config (Sizing.footprint config p.bare.index) p.bare.types =
      classify config (Sizing.footprint config p.index) p.types := by
  unfold classify
  rw [index_bare]
  simp only [bare, List.mapM_map, Function.comp_def, Sizing.footprint_bare]
  rfl

end Package

/-! A scan reports the same places of a signature. -/

namespace Signature

variable (wide : List String) (s : Signature)

theorem offendingReceiver_bare : s.bare.offendingReceiver wide = s.offendingReceiver wide := by
  cases hreceiver : s.receiver <;> simp [offendingReceiver, bare, hreceiver]

theorem offendingParams_bare : s.bare.offendingParams wide = s.offendingParams wide := by
  simp only [offendingParams, bare, List.zipIdx_map, List.filterMap_map]
  apply List.filterMap_congr
  rintro ⟨param, index⟩ _
  simp only [Function.comp_apply, Prod.map_apply, Param.type_bare, TypeRef.isWide_bare]
  rfl

theorem offendingResults_bare : s.bare.offendingResults wide = s.offendingResults wide := by
  simp only [offendingResults, bare, List.zipIdx_map, List.filterMap_map]
  apply List.filterMap_congr
  rintro ⟨⟨name, type⟩, index⟩ _
  cases type <;> rfl

theorem offending_bare : s.bare.offending wide = s.offending wide := by
  simp only [offending, offendingReceiver_bare, offendingParams_bare, offendingResults_bare]

end Signature

/-- Sites in pairs, one pair for each of some pairs of signatures that stand at the same place of
the two lists; the pairs keep their order, and both sites of a pair report the same. -/
def SameSites (signatures signatures' : List Signature) (sites sites' : List CopySite) : Prop :=
  ∃ reported : List ((Signature × Signature) × List String),
    (reported.map (·.1)).Sublist (signatures.zip signatures') ∧
    sites = reported.map (fun ((s, _), shouldBe) => ⟨s, shouldBe⟩) ∧
    sites' = reported.map (fun ((_, s), shouldBe) => ⟨s, shouldBe⟩)

theorem copySites_cons (wide : List String) (s : Signature) (rest : List Signature) :
    copySites wide (s :: rest) =
      match s.offending wide with
      | [] => copySites wide rest
      | shouldBe => ⟨s, shouldBe⟩ :: copySites wide rest := by
  rw [copySites, List.filterMap_cons]
  cases s.offending wide <;> rfl

theorem sameSites_copySites (wide : List String) {signatures signatures' : List Signature}
    (h : signatures.map Signature.bare = signatures'.map Signature.bare) :
    SameSites signatures signatures' (copySites wide signatures) (copySites wide signatures') := by
  induction signatures generalizing signatures' with
  | nil =>
    cases List.map_eq_nil_iff.mp h.symm
    exact ⟨[], .slnil, rfl, rfl⟩
  | cons s rest ih =>
    obtain ⟨s', rest', rfl, hs, hrest⟩ := List.map_eq_cons_iff.mp h.symm
    obtain ⟨reported, hsublist, hsites, hsites'⟩ := ih hrest.symm
    have hoffending : s'.offending wide = s.offending wide := by
      rw [← s'.offending_bare, hs, s.offending_bare]
    rw [copySites_cons, copySites_cons, hoffending, hsites, hsites']
    cases s.offending wide with
    | nil => exact ⟨reported, hsublist.cons (s, s'), rfl, rfl⟩
    | cons first more =>
      exact ⟨((s, s'), first :: more) :: reported, hsublist.cons_cons (s, s'), rfl, rfl⟩

/-- Two packages that differ only in what their pointers point to and how these are spelled get the
same verdict, the same table of footprints among any other packages, and reports on the same
functions for the same places; or the analysis fails on both for one reason. -/
theorem pointer_targets_are_not_followed (config : Config) (p q : Package) (h : p.bare = q.bare) :
    p.check = q.check ∧
    (∀ before after, footprintTable config (before ++ p :: after) =
      footprintTable config (before ++ q :: after)) ∧
    ((∃ cause, p.inspect config = .error cause ∧ q.inspect config = .error cause) ∨
      ∃ wide sites sites', p.inspect config = .ok ⟨wide, sites⟩ ∧
        q.inspect config = .ok ⟨wide, sites'⟩ ∧
        SameSites p.signatures q.signatures sites sites') := by
  refine ⟨?_, fun before after => ?_, ?_⟩
  · rw [← p.check_bare, h, q.check_bare]
  · have hrows : p.footprintRows config = q.footprintRows config := by
      rw [← p.footprintRows_bare, h, q.footprintRows_bare]
    unfold footprintTable
    rw [List.mapM_append, List.mapM_append, List.mapM_cons, List.mapM_cons, hrows]
  · have hclassify : classify config (Sizing.footprint config p.index) p.types =
        classify config (Sizing.footprint config q.index) q.types := by
      rw [← p.classify_bare, h, q.classify_bare]
    have hsignatures : p.signatures.map Signature.bare = q.signatures.map Signature.bare :=
      congrArg Package.signatures h
    unfold Package.inspect
    rw [hclassify]
    cases ((classify config (Sizing.footprint config q.index) q.types).run []).1 with
    | error cause => exact .inl ⟨cause, rfl, rfl⟩
    | ok wide => exact .inr ⟨wide, _, _, rfl, rfl, sameSites_copySites wide hsignatures⟩

def pushMethod (pointer : TypeRef) : Signature where
  name := "Push"
  position := ⟨"chain.go", 7, 1⟩
  receiver := some ⟨"l", .named "Link" "Link"⟩
  params := [⟨"more", .array pointer 2⟩, ⟨"l", .named "Link" "Link"⟩]
  results := [⟨"", pointer⟩]

def chainPackage (pointer other : TypeRef) : Package where
  name := "chain"
  types := [⟨"Link", "Link", [⟨"next", pointer⟩, ⟨"rest", .array pointer 2⟩, ⟨"", other⟩]⟩]
  signatures := [pushMethod pointer]

def ownPointer : TypeRef := .pointer (.named "Link" "Link") ""

def strayPointer : TypeRef := .pointer (.named "x.Gone" "Gone") "map[int]Gone"

/-- A pointer to the struct itself and one to a struct that is nowhere to be found are the same to
the analysis, also where it fails. -/
theorem pointer_targets_are_not_followed_chain :
    (∀ other, (chainPackage ownPointer other).bare = (chainPackage strayPointer other).bare) ∧
    (∃ sites', (chainPackage strayPointer (.scalar { name := "byte", size := 1 })).inspect {} =
        .ok ⟨["Link"], sites'⟩ ∧
      SameSites [pushMethod ownPointer] [pushMethod strayPointer]
        [⟨pushMethod ownPointer, ["receiver", "parameter 'l' at index 1"]⟩] sites') ∧
    (chainPackage strayPointer (.named "y.Lost" "Lost")).inspect {} =
      .error (.unknownType "Lost" "y.Lost") := by
  have hbare : ∀ other, (chainPackage ownPointer other).bare =
      (chainPackage strayPointer other).bare := fun _ => rfl
  refine ⟨hbare, ?_, ?_⟩
  · have hfound : (chainPackage ownPointer (.scalar { name := "byte", size := 1 })).inspect {} =
        .ok ⟨["Link"], [⟨pushMethod ownPointer, ["receiver", "parameter 'l' at index 1"]⟩]⟩ := by
      decide +kernel
    obtain ⟨cause, herror, _⟩ | ⟨wide, sites, sites', hok, hok', hsame⟩ :=
      (pointer_targets_are_not_followed {} _ _
        (hbare (.scalar { name := "byte", size := 1 }))).2.2
    · cases hfound.symm.trans herror
    · cases hfound.symm.trans hok
      exact ⟨sites', hok', hsame⟩
  · have hfailed : (chainPackage ownPointer (.named "y.Lost" "Lost")).inspect {} =
        .error (.unknownType "Lost" "y.Lost") := by
      decide +kernel
    obtain ⟨cause, herror, herror'⟩ | ⟨wide, sites, sites', hok, _, _⟩ :=
      (pointer_targets_are_not_followed {} _ _ (hbare (.named "y.Lost" "Lost"))).2.2
    · cases hfailed.symm.trans herror
      exact herror'
    · cases hfailed.symm.trans hok

end CopyLint
