import Mathlib.Data.Finset.Dedup
import Mathlib.Data.Finset.Insert
import CopyLint.Proofs.GraphVerdict
import CopyLint.Proofs.TableAgreement

/-! The order in which a package lists its definitions. Where no identity is listed twice, an index
finds the same definitions in whatever order they come, and neither the search for cycles nor the
layouts look at more than what is found. The search starts from the identities in sorted order, so
even the cycle that it reports is the same. -/
namespace CopyLint

/-! Only what an index finds counts. -/

section

variable {index index' : Index} (hfind : index'.find? = index.find?)
include hfind

theorem Search.step_congr (s : Search) : s.step index' = s.step index := by
  simp only [step, hfind]

theorem Index.cycleFrom_congr (done starts : List String) :
    index'.cycleFrom done starts = index.cycleFrom done starts := by
  induction starts generalizing done with
  | nil => rfl
  | cons identity rest ih =>
    simp only [cycleFrom, hfind, ih, Search.run_congr (Search.step_congr hfind)]

theorem Index.layoutWithin_congr (config : Config) (depth : Nat) :
    index'.layoutWithin config depth = index.layoutWithin config depth := by
  induction depth with
  | zero => rfl
  | succ depth ih =>
    funext identity
    simp only [layoutWithin, hfind, ih]

end

namespace Index

variable {index index' : Index}

theorem find?_of_subset (hnodup : index.identities.Nodup)
    (hsubset : index'.definitions ⊆ index.definitions) {identity : String} {t : TypeDef}
    (h : index'.find? identity = some t) : index.find? identity = some t := by
  rw [← identity_of_find? h]
  exact find?_of_mem hnodup (hsubset (mem_of_find? h))

variable (hnodup : index.identities.Nodup) (hperm : index'.definitions.Perm index.definitions)
include hnodup hperm

theorem find?_eq_of_perm : index'.find? = index.find? := by
  have hnodup' : index'.identities.Nodup := (hperm.map TypeDef.identity).nodup_iff.mpr hnodup
  funext identity
  ext t
  exact ⟨find?_of_subset hnodup hperm.subset, find?_of_subset hnodup' hperm.symm.subset⟩

theorem layout?_eq_of_perm (config : Config) : index'.layout? config = index.layout? config := by
  funext identity
  unfold layout?
  rw [hperm.length_eq, layoutWithin_congr (find?_eq_of_perm hnodup hperm)]

theorem cycle?_eq_of_perm : index'.cycle? = index.cycle? := by
  have hsorted : index'.identities.mergeSort (· ≤ ·) = index.identities.mergeSort (· ≤ ·) := by
    apply mergeSort_eq_of_perm
    · simp only [decide_eq_true_eq]
      intro a b c
      exact String.le_trans
    · intro a b
      simpa using String.le_total a b
    · exact hperm.map TypeDef.identity
    · intro a _ b _ hab hba
      exact String.le_antisymm (of_decide_eq_true hab) (of_decide_eq_true hba)
  unfold cycle?
  rw [hsorted, cycleFrom_congr (find?_eq_of_perm hnodup hperm)]

end Index

/-! Two packages that list the same definitions. -/

namespace Package

section

variable {p q : Package} (hperm : q.definitions.Perm p.definitions)
include hperm

theorem perm_identities : q.identities.Perm p.identities :=
  hperm.map TypeDef.identity

theorem perm_definitions_index : q.index.definitions.Perm p.index.definitions := by
  have hindex : ∀ p : Package, p.index.definitions.Perm p.definitions := fun p =>
    (List.reverse_perm _).trans List.perm_append_comm
  exact (hindex q).trans (hperm.trans (hindex p).symm)

theorem known_iff_of_perm : q.Known ↔ p.Known := by
  simp only [Known, hperm.mem_iff, (perm_identities hperm).mem_iff]

theorem acyclic_iff_of_perm : q.Acyclic ↔ p.Acyclic := by
  have hrefers : q.Refers = p.Refers := by
    ext outer inner
    simp only [Refers, hperm.mem_iff]
  simp only [Acyclic, hrefers]

theorem check_eq_ok_iff_of_perm : q.check = .ok () ↔ p.check = .ok () := by
  simp only [check_eq_ok_iff_listed, (perm_identities hperm).nodup_iff, known_iff_of_perm hperm,
    acyclic_iff_of_perm hperm]

variable (hnodup : p.identities.Nodup)
include hnodup

theorem find?_index_of_perm : q.index.find? = p.index.find? :=
  Index.find?_eq_of_perm (nodup_identities_index hnodup) (perm_definitions_index hperm)

theorem layout?_index_of_perm (config : Config) :
    q.index.layout? config = p.index.layout? config :=
  Index.layout?_eq_of_perm (nodup_identities_index hnodup) (perm_definitions_index hperm) config

theorem check_eq_of_perm (hlabel : q.label = p.label) (hknown : p.Known) : q.check = p.check := by
  have hnodup' : q.identities.Nodup := (perm_identities hperm).nodup_iff.mpr hnodup
  have hknown' : q.Known := (known_iff_of_perm hperm).mpr hknown
  have hcycle : q.index.cycle? = p.index.cycle? :=
    Index.cycle?_eq_of_perm (nodup_identities_index hnodup) (perm_definitions_index hperm)
  rw [check_eq, check_eq, firstRepeat_eq_none hnodup, firstRepeat_eq_none hnodup',
    firstUnknown_eq_none hknown, firstUnknown_eq_none hknown', hcycle, hlabel,
    find?_index_of_perm hperm hnodup]

end

end Package

namespace Sizing

variable {α β : Type}

theorem map_orUnsupported (f : α → β) (found : Option α) :
    (orUnsupported found).map f = orUnsupported (found.map f) := by
  cases found <;> rfl

theorem mapM_orUnsupported (g : α → Option β) (as : List α) :
    (as.mapM fun a => orUnsupported (g a)) = orUnsupported (as.mapM g) := by
  induction as with
  | nil => rfl
  | cons a rest ih =>
    rw [List.mapM_cons, List.mapM_cons, ih]
    cases g a with
    | none => rfl
    | some b => cases rest.mapM g <;> rfl

end Sizing

namespace Package

/-! In a package that passes its check, a definition has the footprint of its recursive layout, or
there is a reference to nothing somewhere below it. -/

section

variable {config : Config} {p : Package} {t : TypeDef} (hcheck : p.check = .ok ())
include hcheck

theorem find?_of_check (hmem : t ∈ p.index.definitions) : p.index.find? t.identity = some t :=
  Index.find?_of_mem (nodup_identities_index (check_eq_ok_iff.mp hcheck).1) hmem

theorem layoutOrFailure_of_check (hmem : t ∈ p.index.definitions) :
    p.index.layoutOrFailure config t =
      Sizing.orUnsupported (p.index.layout? config t.identity) := by
  obtain ⟨_, hknown, hacyclic⟩ := check_eq_ok_iff.mp hcheck
  cases hlayout : p.index.layout? config t.identity with
  | some layout => simp only [Index.layoutOrFailure, hlayout, Sizing.orUnsupported]
  | none =>
    obtain ⟨cause, hcause⟩ : ∃ cause, p.index.layoutOrFailure config t = .error cause := by
      simp [Index.layoutOrFailure, hlayout]
    rw [hcause]
    cases Index.explains_of_layoutOrFailure (find?_of_check hcheck hmem) hcause with
    | unknown _ hfind hreference habsent =>
      have hpresent := hknown _ (Index.mem_of_find? hfind) _ hreference
      rw [habsent] at hpresent
      cases hpresent
    | recursive _ _ hreaches => exact absurd hreaches (hacyclic _)
    | unsupported => rfl

theorem yields_footprint_of_check (hmem : t ∈ p.index.definitions) :
    Sizing.Yields (Memo.Correct config p.index) (Sizing.footprint config p.index t)
      (Sizing.orUnsupported ((p.index.layout? config t.identity).map (·.size))) := by
  rw [← Sizing.map_orUnsupported, ← layoutOrFailure_of_check hcheck hmem]
  exact Sizing.yields_footprint (find?_of_check hcheck hmem)

theorem footprints_of_check : p.footprints config =
    p.types.mapM fun t => Sizing.orUnsupported ((p.index.layout? config t.identity).map (·.size)) :=
  (Sizing.yields_mapM_answers (fun _ hmem => yields_footprint_of_check hcheck
    (mem_definitions_of_mem_types hmem)) [] (Memo.correct_nil config p.index)).1

theorem inspect_of_check (config : Config) : p.inspect config =
    if ∀ t ∈ p.types, (p.index.layout? config t.identity).isSome then
      .ok ⟨p.wideIdentities config, p.wideCopies config⟩
    else .error (.unsupportedRef {}) := by
  rw [inspect_eq_map, footprints_of_check hcheck]
  split
  · rename_i hsome
    have hsizes : ∀ t ∈ p.types,
        Sizing.orUnsupported ((p.index.layout? config t.identity).map (·.size)) =
          .ok (p.index.structSize config t.identity) := by
      intro t hmem
      obtain ⟨layout, hlayout⟩ := Option.isSome_iff_exists.mp (hsome t hmem)
      rw [Index.structSize_of_layout? hlayout, hlayout]
      rfl
    have hwide : p.inspection config (p.types.map fun t => p.index.structSize config t.identity) =
        ⟨p.wideIdentities config, copySites (p.wideIdentities config) p.signatures⟩ := by
      simp only [inspection, wideIdentities, measured, List.zipWith_map_right, List.zipWith_self,
        List.filter_map, List.map_map]
      rfl
    rw [mapM_eq_ok_map hsizes, ← copySites_eq (listsWide_wideIdentities hsome), ← hwide]
    rfl
  · rename_i hmissing
    have hnone : (p.types.mapM fun t => (p.index.layout? config t.identity).map (·.size)) =
        none := by
      rw [← Option.not_isSome_iff_eq_none, isSome_mapM_iff]
      simpa using hmissing
    rw [Sizing.mapM_orUnsupported, hnone]
    rfl

theorem succeeds_of_check (config : Config) (hsupported : p.Supported) :
    (∀ t ∈ p.definitions, ∃ size, ((Sizing.footprint config p.index t).run []).1 = .ok size) ∧
      ∃ found, p.inspect config = .ok found := by
  have hsome := (check_eq_ok_iff_layouts config hsupported (check_eq_ok_iff.mp hcheck).1).mp hcheck
  constructor
  · intro t hmem
    have hindex := mem_definitions.mp hmem
    exact (Sizing.exists_footprint_iff (find?_of_check hcheck hindex)).mpr (hsome t hindex)
  · rw [inspect_of_check hcheck, if_pos fun t hmem => hsome t (mem_definitions_of_mem_types hmem)]
    exact ⟨_, rfl⟩

end

/-! The same definitions, and the same ones of the package's own among them. -/

section

variable {p q : Package} (hperm : q.definitions.Perm p.definitions) (hcheck : p.check = .ok ())
include hperm hcheck

theorem footprint_eq_of_perm (config : Config) {t : TypeDef} (hmem : t ∈ p.definitions) :
    ((Sizing.footprint config q.index t).run []).1 =
      ((Sizing.footprint config p.index t).run []).1 := by
  have hcheck' : q.check = .ok () := (check_eq_ok_iff_of_perm hperm).mpr hcheck
  have hmem' : t ∈ q.definitions := hperm.mem_iff.mpr hmem
  rw [(yields_footprint_of_check hcheck (mem_definitions.mp hmem) [] (Memo.correct_nil _ _)).1,
    (yields_footprint_of_check hcheck' (mem_definitions.mp hmem') [] (Memo.correct_nil _ _)).1,
    layout?_index_of_perm hperm (check_eq_ok_iff_listed.mp hcheck).1]

variable (htypes : q.types.Perm p.types)
include htypes

theorem inspect_eq_of_perm (hsignatures : q.signatures = p.signatures) (config : Config) :
    ((q.inspect config).map (·.wide.toFinset) = (p.inspect config).map (·.wide.toFinset)) ∧
      (q.inspect config).map (·.sites) = (p.inspect config).map (·.sites) := by
  have hlayout := layout?_index_of_perm hperm (check_eq_ok_iff_listed.mp hcheck).1 config
  have hlists : ∀ wide, q.ListsWide config wide ↔ p.ListsWide config wide := by
    intro wide
    simp only [ListsWide, Wide, hlayout, (htypes.map TypeDef.identity).mem_iff]
  rw [inspect_of_check hcheck, inspect_of_check ((check_eq_ok_iff_of_perm hperm).mpr hcheck)]
  simp only [htypes.mem_iff, hlayout]
  split
  · rename_i hsome
    have hp : p.ListsWide config (p.wideIdentities config) := listsWide_wideIdentities hsome
    have hq : q.ListsWide config (q.wideIdentities config) := by
      apply listsWide_wideIdentities
      simpa only [htypes.mem_iff, hlayout] using hsome
    have hwide : (q.wideIdentities config).toFinset = (p.wideIdentities config).toFinset := by
      ext identity
      rw [List.mem_toFinset, List.mem_toFinset, hp identity, (hlists _).mp hq identity]
    have hsites : q.wideCopies config = p.wideCopies config := by
      rw [← copySites_eq hp, ← copySites_eq ((hlists _).mpr hp), hsignatures]
    simp only [Except.map, hwide, hsites, and_self]
  · exact ⟨rfl, rfl⟩

end

def relist (p : Package) (types imported : List TypeDef) : Package :=
  { p with types, imported }

theorem map_classify {α : Type} (f : List String → α) (config : Config) (p : Package) :
    ((classify config (Sizing.footprint config p.index) p.types).run []).1.map f =
      (p.inspect config).map fun found => f found.wide := by
  unfold inspect
  cases ((classify config (Sizing.footprint config p.index) p.types).run []).1 <;> rfl

end Package

/-- A package may list its definitions in any order, and also as imported instead of as its own. The
check passes both or neither. Where no identity is repeated and every reference is known, it fails
with the same message. Where it passes, every definition has the same footprint; and if the own
definitions of the package are the same ones, so are the wide structs and the copies that are found.
There is something to compare unless some field refers to nothing. -/
theorem listing_order_is_irrelevant (p : Package) (types imported : List TypeDef)
    (hperm : (types ++ imported).Perm (p.types ++ p.imported)) :
    ((p.relist types imported).check = .ok () ↔ p.check = .ok ()) ∧
    (p.identities.Nodup → p.Known →
      (p.relist types imported).check.mapError (·.message) = p.check.mapError (·.message)) ∧
    (p.check = .ok () → ∀ config : Config,
      (p.Supported → (∀ t ∈ p.types ++ p.imported,
          ∃ size, ((Sizing.footprint config p.index t).run []).1 = .ok size) ∧
        ∃ found, p.inspect config = .ok found) ∧
      (∀ t ∈ p.types ++ p.imported,
        ((Sizing.footprint config (p.relist types imported).index t).run []).1 =
          ((Sizing.footprint config p.index t).run []).1) ∧
      (types.Perm p.types →
        ((classify config (Sizing.footprint config (p.relist types imported).index) types).run
            []).1.map List.toFinset =
          ((classify config (Sizing.footprint config p.index) p.types).run []).1.map
            List.toFinset ∧
        ((p.relist types imported).inspect config).map (·.sites) =
          (p.inspect config).map (·.sites))) := by
  have hdefinitions : (p.relist types imported).definitions.Perm p.definitions := hperm
  refine ⟨Package.check_eq_ok_iff_of_perm hdefinitions, ?_, ?_⟩
  · intro hnodup hknown
    rw [Package.check_eq_of_perm hdefinitions hnodup rfl hknown]
  · intro hcheck config
    refine ⟨?_, fun t => Package.footprint_eq_of_perm hdefinitions hcheck config, ?_⟩
    · exact fun hsupported => Package.succeeds_of_check hcheck config hsupported
    · intro htypes
      obtain ⟨hwide, hsites⟩ := Package.inspect_eq_of_perm hdefinitions hcheck htypes rfl config
      refine ⟨?_, hsites⟩
      rw [Package.map_classify, ← hwide]
      exact Package.map_classify List.toFinset config (p.relist types imported)

/-- A cycle through two definitions of which each is listed in the place of the other, and a package
whose wide structs are listed the other way round. -/
theorem listing_order_is_irrelevant_reversed :
    (loopPackage.relist loopPackage.imported loopPackage.types).check.mapError (·.message) =
      .error "unit ring: invalid recursive type Node -> Link -> Node" ∧
    framesPackage.check = .ok () ∧
    ((classify {} (Sizing.footprint {}
        (framesPackage.relist framesPackage.types.reverse framesPackage.imported).index)
      framesPackage.types.reverse).run []).1.map List.toFinset = .ok {"Head", "Frame"} ∧
    ((framesPackage.relist framesPackage.types.reverse framesPackage.imported).inspect {}).map
      (·.sites) = (framesPackage.inspect {}).map (·.sites) := by
  have hcheck : framesPackage.check = .ok () :=
    (Package.check_eq_ok_iff_layouts {} (by decide) (by decide)).mpr (by decide)
  have hwide : ((classify {} (Sizing.footprint {} framesPackage.index)
      framesPackage.types).run []).1 = .ok ["Head", "Frame"] := by
    decide +kernel
  have hnodup : loopPackage.identities.Nodup := by decide
  have hknown : loopPackage.Known := Package.known_iff.mpr (by decide)
  have hcycle : loopPackage.index.cycle? = some ["p.Node", "q.Link", "p.Node"] := by
    have hsorted : loopPackage.index.identities.mergeSort (· ≤ ·) = ["p.Node", "q.Link"] :=
      List.mergeSort_of_pairwise (by decide)
    rw [Index.cycle?, hsorted]
    simp [Index.cycleFrom, Search.run_eq, Search.start, Search.step, Search.identities,
      Search.cycleAt, Index.find?, loopPackage, ringPackage, Package.index, Index.ofList,
      TypeDef.embeds, TypeRef.embedded, TypeRef.core]
  have hloop : loopPackage.check = .error (.cycle "ring" ["Node", "Link", "Node"]) := by
    rw [Package.check_eq, Package.firstRepeat_eq_none hnodup, Package.firstUnknown_eq_none hknown,
      hcycle]
    decide
  have hmessage :=
    (listing_order_is_irrelevant loopPackage _ _ List.perm_append_comm).2.1 hnodup hknown
  rw [hloop] at hmessage
  have hframes := (listing_order_is_irrelevant framesPackage _ framesPackage.imported
    ((List.reverse_perm _).append_right _)).2.2 hcheck {}
  obtain ⟨hclassify, hsites⟩ := hframes.2.2 (List.reverse_perm _)
  refine ⟨hmessage.trans (by decide +kernel), hcheck, hclassify.trans ?_, hsites⟩
  rw [hwide]
  simp [Except.map]

end CopyLint
