import Mathlib.Algebra.Order.Ring.Int
import Mathlib.Data.List.Forall2
import CopyLint.Proofs.PackageSizes

/-! Findings on two platforms. With wider words, larger alignments and less allowed width there is
more to report. This rests on alignments that are powers of two: of two such alignments the smaller
divides the larger, so that what is padded for the larger is padded for the smaller. -/
namespace CopyLint

def IsPowerOfTwo (n : Int) : Prop :=
  ∃ k : Nat, n = 2 ^ k

instance : DecidablePred IsPowerOfTwo := fun n =>
  decidable_of_iff (n = 2 ^ n.toNat.log2) ⟨fun h => ⟨_, h⟩, by
    rintro ⟨k, rfl⟩
    have hk : ((2 : Int) ^ k).toNat = 2 ^ k := by exact_mod_cast Int.toNat_natCast (2 ^ k)
    rw [hk, Nat.log2_two_pow]⟩

namespace IsPowerOfTwo

variable {m n : Int}

theorem one : IsPowerOfTwo 1 :=
  ⟨0, rfl⟩

theorem pos (h : IsPowerOfTwo n) : 0 < n := by
  obtain ⟨k, rfl⟩ := h
  exact Int.pow_pos (by decide)

theorem dvd_of_le (hm : IsPowerOfTwo m) (hn : IsPowerOfTwo n) (hle : m ≤ n) : m ∣ n := by
  obtain ⟨j, rfl⟩ := hm
  obtain ⟨k, rfl⟩ := hn
  apply pow_dvd_pow
  exact (pow_le_pow_iff_right₀ (by decide)).mp hle

theorem max (hm : IsPowerOfTwo m) (hn : IsPowerOfTwo n) : IsPowerOfTwo (max m n) := by
  rcases le_total m n with h | h
  · rwa [max_eq_right h]
  · rwa [max_eq_left h]

theorem min (hm : IsPowerOfTwo m) (hn : IsPowerOfTwo n) : IsPowerOfTwo (min m n) := by
  rcases le_total m n with h | h
  · rwa [min_eq_left h]
  · rwa [min_eq_right h]

end IsPowerOfTwo

theorem roundUp_mono {offset offset' align align' : Int} (hoffset : offset ≤ offset')
    (halign : align ≤ align') (hpower : IsPowerOfTwo align) (hpower' : IsPowerOfTwo align') :
    roundUp offset align ≤ roundUp offset' align' := by
  apply roundUp_le hpower.pos
  · exact (hpower.dvd_of_le hpower' halign).trans (dvd_roundUp offset' align')
  · exact hoffset.trans (le_roundUp offset' hpower'.pos)

namespace Config

/-- Words and the largest alignment are powers of two. -/
structure Binary (c : Config) : Prop where
  wordSize : IsPowerOfTwo c.wordSize
  maxAlign : IsPowerOfTwo c.maxAlign

/-- The first platform has no wider words and no larger alignments than the second, and no smaller
width is allowed on it. -/
structure Milder (c d : Config) : Prop where
  maxWidth : d.maxWidth ≤ c.maxWidth
  wordSize : c.wordSize ≤ d.wordSize
  maxAlign : c.maxAlign ≤ d.maxAlign

variable {c d : Config}

theorem Binary.cap (h : c.Binary) {align : Int} (halign : align = 0 ∨ IsPowerOfTwo align) :
    IsPowerOfTwo (c.cap align) := by
  rcases halign with rfl | halign
  · have hzero : c.cap 0 = 1 := by
      have := c.maxAlign_pos
      unfold Config.cap
      omega
    rw [hzero]
    exact .one
  · exact .max .one (halign.min h.maxAlign)

theorem Milder.refl (c : Config) : c.Milder c :=
  ⟨le_rfl, le_rfl, le_rfl⟩

theorem Milder.cap_le (h : c.Milder d) {align align' : Int} (hle : align ≤ align') :
    c.cap align ≤ d.cap align' := by
  have := h.maxAlign
  unfold Config.cap
  omega

end Config

namespace Scalar

/-- The scalar asks for no alignment, or for a power of two. -/
def PowerAligned (wordSize : Int) (s : Scalar) : Prop :=
  s.naturalAlign wordSize = 0 ∨ IsPowerOfTwo (s.naturalAlign wordSize)

instance (wordSize : Int) (s : Scalar) : Decidable (s.PowerAligned wordSize) :=
  inferInstanceAs (Decidable (_ ∨ _))

theorem PowerAligned.of_word {s : Scalar} {wordSize wordSize' : Int}
    (h : s.PowerAligned wordSize) (hword : IsPowerOfTwo wordSize') : s.PowerAligned wordSize' := by
  unfold PowerAligned naturalAlign at *
  split
  · rename_i halign
    rwa [if_pos halign] at h
  · rename_i halign
    split
    · exact .inr hword
    · rename_i hwords
      rwa [if_neg halign, if_neg hwords] at h

theorem naturalAlign_mono (s : Scalar) {wordSize wordSize' : Int} (h : wordSize ≤ wordSize') :
    s.naturalAlign wordSize ≤ s.naturalAlign wordSize' := by
  unfold naturalAlign
  split
  · exact le_rfl
  · split
    · exact h
    · exact le_rfl

theorem bytes_mono {s : Scalar} (hwords : 0 ≤ s.words) {wordSize wordSize' : Int}
    (h : wordSize ≤ wordSize') : s.bytes wordSize ≤ s.bytes wordSize' :=
  Int.add_le_add_left (Int.mul_le_mul_of_nonneg_left h hwords) s.size

end Scalar

/-- The layout is no larger than the other, with alignments that are powers of two. -/
structure Layout.Below (layout layout' : Layout) : Prop where
  size_le : layout.size ≤ layout'.size
  align_le : layout.align ≤ layout'.align
  power : IsPowerOfTwo layout.align
  power' : IsPowerOfTwo layout'.align

namespace Layout

theorem Below.place {sofar sofar' field field' : Layout} (hsofar : sofar.Below sofar')
    (hfield : field.Below field') : (sofar.place field).Below (sofar'.place field') where
  size_le := by
    have hstart := roundUp_mono hsofar.size_le hfield.align_le hfield.power hfield.power'
    exact Int.add_le_add hstart hfield.size_le
  align_le := max_le_max hsofar.align_le hfield.align_le
  power := hsofar.power.max hfield.power
  power' := hsofar.power'.max hfield.power'

theorem below_foldl_place {fields fields' : List Layout} (h : fields.Forall₂ Below fields')
    {sofar sofar' : Layout} (hsofar : sofar.Below sofar') :
    (fields.foldl place sofar).Below (fields'.foldl place sofar') := by
  induction h generalizing sofar sofar' with
  | nil => exact hsofar
  | cons hfield _ ih => exact ih (hsofar.place hfield)

theorem below_ofFields {fields fields' : List Layout} (h : fields.Forall₂ Below fields') :
    (ofFields fields).Below (ofFields fields') := by
  have hplaced : (fields.foldl place ⟨0, 1⟩).Below (fields'.foldl place ⟨0, 1⟩) :=
    below_foldl_place h ⟨le_rfl, le_rfl, .one, .one⟩
  refine ⟨?_, hplaced.align_le, hplaced.power, hplaced.power'⟩
  exact roundUp_mono hplaced.size_le hplaced.align_le hplaced.power hplaced.power'

theorem Below.ofElements {elem elem' : Layout} (h : elem.Below elem') (length : Int) :
    (ofElements elem length).Below (ofElements elem' length) := by
  refine ⟨?_, h.align_le, h.power, h.power'⟩
  unfold Layout.ofElements
  dsimp only
  split
  · exact le_rfl
  · have hstride := roundUp_mono h.size_le h.align_le h.power h.power'
    have hstrides := Int.mul_le_mul_of_nonneg_right hstride (show 0 ≤ length - 1 by omega)
    exact Int.add_le_add hstrides h.size_le

end Layout

variable {c d : Config}

theorem Config.Milder.below_scalar (h : c.Milder d) (hc : c.Binary) (hd : d.Binary) {s : Scalar}
    (hwords : 0 ≤ s.words) (haligned : s.PowerAligned c.wordSize) :
    Layout.Below ⟨s.bytes c.wordSize, c.cap (s.naturalAlign c.wordSize)⟩
      ⟨s.bytes d.wordSize, d.cap (s.naturalAlign d.wordSize)⟩ where
  size_le := s.bytes_mono hwords h.wordSize
  align_le := h.cap_le (s.naturalAlign_mono h.wordSize)
  power := hc.cap haligned
  power' := hd.cap (haligned.of_word hd.wordSize)

theorem Config.Milder.below_word (h : c.Milder d) (hc : c.Binary) (hd : d.Binary) :
    Layout.Below ⟨c.wordSize, c.cap c.wordSize⟩ ⟨d.wordSize, d.cap d.wordSize⟩ where
  size_le := h.wordSize
  align_le := h.cap_le h.wordSize
  power := hc.cap (.inr hc.wordSize)
  power' := hd.cap (.inr hd.wordSize)

/-- The scalar that a value of the type is made of, alone or in an array. -/
def TypeRef.scalar? (ref : TypeRef) : Option Scalar :=
  match ref.core with
  | .scalar s => some s
  | _ => none

section

variable (hmilder : c.Milder d) (hc : c.Binary) (hd : d.Binary)
include hmilder hc hd

theorem TypeRef.below_layout? {inner inner' : String → Option Layout} {ref : TypeRef}
    (hvalid : ref.Valid) (haligned : ∀ s ∈ ref.scalar?, s.PowerAligned c.wordSize)
    (hinner : ∀ reference, ref.embedded = some reference → ∀ layout layout',
      inner reference.1 = some layout → inner' reference.1 = some layout' → layout.Below layout')
    {layout layout' : Layout} (h : ref.layout? c inner = some layout)
    (h' : ref.layout? d inner' = some layout') : layout.Below layout' := by
  induction ref generalizing layout layout' with
  | scalar s =>
    cases h
    cases h'
    exact hmilder.below_scalar hc hd hvalid.2.2 (haligned s rfl)
  | named identity name => exact hinner (identity, name) rfl layout layout' h h'
  | pointer | rawPointer =>
    cases h
    cases h'
    exact hmilder.below_word hc hd
  | array elem length ih =>
    obtain ⟨found, hfound, rfl⟩ := Option.map_eq_some_iff.mp h
    obtain ⟨found', hfound', rfl⟩ := Option.map_eq_some_iff.mp h'
    exact (ih hvalid.1 haligned hinner hfound hfound').ofElements length
  | unsupported => cases h

theorem Index.below_layout? {index : Index} (hvalid : ∀ t ∈ index.definitions, t.Valid)
    (haligned : ∀ t ∈ index.definitions, ∀ field ∈ t.fields, ∀ s ∈ field.type.scalar?,
      s.PowerAligned c.wordSize)
    {identity : String} {layout layout' : Layout} (h : index.layout? c identity = some layout)
    (h' : index.layout? d identity = some layout') : layout.Below layout' := by
  revert layout'
  refine layout?_induction (P := fun identity layout => ∀ {layout' : Layout},
    index.layout? d identity = some layout' → layout.Below layout') ?_ h
  intro identity t fields hfind hfields hinner layout' h'
  rw [layout?_of_find? hfind] at h'
  obtain ⟨fields', hfields', rfl⟩ := Option.map_eq_some_iff.mp h'
  have hmem := mem_of_find? hfind
  apply Layout.below_ofFields
  apply forall₂_of_mapM hfields hfields'
  intro field hfield found found' hfound hfound'
  refine TypeRef.below_layout? hmilder hc hd (hvalid t hmem field hfield)
    (haligned t hmem field hfield) ?_ hfound hfound'
  intro reference hreference embedded embedded' hembedded hembedded'
  exact hinner reference (mem_references.mpr ⟨field, hfield, hreference⟩) embedded hembedded
    hembedded'

end

/-! With more wide structs there are more places to report, and none is lost. -/

theorem filterMap_sublist_of_imp {α β : Type} {f g : α → Option β}
    (h : ∀ a b, f a = some b → g a = some b) (as : List α) :
    (as.filterMap f).Sublist (as.filterMap g) := by
  induction as with
  | nil => exact .slnil
  | cons a rest ih =>
    cases hf : f a with
    | none =>
      rw [List.filterMap_cons_none hf]
      exact ih.trans ((List.sublist_cons_self a rest).filterMap g)
    | some b =>
      rw [List.filterMap_cons_some hf, List.filterMap_cons_some (h a b hf)]
      exact ih.cons_cons b

namespace Signature

variable {wide wide' : List String}

theorem isWide_mono (h : wide ⊆ wide') {ref : TypeRef} (hwide : ref.isWide wide) :
    ref.isWide wide' := by
  cases ref with
  | named identity name =>
    simp only [TypeRef.isWide, List.contains_iff_mem] at hwide ⊢
    exact h hwide
  | scalar | pointer | rawPointer | array | unsupported => cases hwide

theorem offendingReceiver_sublist (h : wide ⊆ wide') (s : Signature) :
    (s.offendingReceiver wide).Sublist (s.offendingReceiver wide') := by
  unfold offendingReceiver
  cases s.receiver with
  | none => exact .slnil
  | some receiver =>
    by_cases hwide : receiver.type.isWide wide
    · simp [hwide, isWide_mono h hwide]
    · simp [hwide]

theorem offendingParams_sublist (h : wide ⊆ wide') (s : Signature) :
    (s.offendingParams wide).Sublist (s.offendingParams wide') := by
  apply filterMap_sublist_of_imp
  rintro ⟨param, index⟩ text htext
  by_cases hwide : param.type.isWide wide
  · simpa [hwide, isWide_mono h hwide] using htext
  · simp [hwide] at htext

theorem offendingResults_sublist (h : wide ⊆ wide') (s : Signature) :
    (s.offendingResults wide).Sublist (s.offendingResults wide') := by
  apply filterMap_sublist_of_imp
  rintro ⟨⟨name, type⟩, index⟩ text htext
  cases type with
  | named identity typeName =>
    by_cases hwide : identity ∈ wide
    · simpa [hwide, h hwide] using htext
    · simp [hwide] at htext
  | scalar | pointer | rawPointer | array | unsupported => cases htext

theorem offending_sublist (h : wide ⊆ wide') (s : Signature) :
    (s.offending wide).Sublist (s.offending wide') :=
  ((s.offendingReceiver_sublist h).append (s.offendingParams_sublist h)).append
    (s.offendingResults_sublist h)

end Signature

theorem map_signature_copySites (wide : List String) (signatures : List Signature) :
    (copySites wide signatures).map (·.signature) =
      signatures.filter fun s => s.offending wide ≠ [] := by
  unfold copySites
  rw [List.map_filterMap, ← List.filterMap_eq_filter]
  apply List.filterMap_congr
  intro s _
  cases hoffending : s.offending wide <;> simp [Option.guard, hoffending]

theorem signatures_sublist {wide wide' : List String} (h : wide ⊆ wide')
    (signatures : List Signature) :
    ((copySites wide signatures).map (·.signature)).Sublist
      ((copySites wide' signatures).map (·.signature)) := by
  simp only [map_signature_copySites]
  apply List.monotone_filter_right
  intro s hs
  simp only [ne_eq, decide_eq_true_eq] at hs ⊢
  intro hnil
  have hsublist := s.offending_sublist h
  rw [hnil] at hsublist
  exact hs (List.sublist_nil.mp hsublist)

namespace Package

variable {p : Package}

def PowerAligned (c : Config) (p : Package) : Prop :=
  ∀ t ∈ p.types ++ p.imported, ∀ field ∈ t.fields, ∀ s ∈ field.type.scalar?,
    s.PowerAligned c.wordSize

instance (c : Config) (p : Package) : Decidable (p.PowerAligned c) :=
  inferInstanceAs (Decidable (∀ t ∈ p.types ++ p.imported, ∀ field ∈ t.fields,
    ∀ s ∈ field.type.scalar?, _))

theorem Sound.structSize_le (h : p.Sound) (hmilder : c.Milder d) (hc : c.Binary) (hd : d.Binary)
    (haligned : p.PowerAligned c) {t : TypeDef} (hmem : t ∈ p.index.definitions) :
    p.index.structSize c t.identity ≤ p.index.structSize d t.identity := by
  obtain ⟨layout, hlayout⟩ := h.exists_layout c hmem
  obtain ⟨layout', hlayout'⟩ := h.exists_layout d hmem
  rw [Index.structSize_of_layout? hlayout, Index.structSize_of_layout? hlayout']
  exact (Index.below_layout? hmilder hc hd (fun u hu => h.valid u (mem_index_iff.mp hu))
    (fun u hu => haligned u (mem_index_iff.mp hu)) hlayout hlayout').size_le

theorem Sound.wideIdentities_subset (h : p.Sound) (hmilder : c.Milder d) (hc : c.Binary)
    (hd : d.Binary) (haligned : p.PowerAligned c) :
    p.wideIdentities c ⊆ p.wideIdentities d := by
  intro identity hidentity
  simp only [wideIdentities, List.mem_eraseDups, List.mem_map, List.mem_filter,
    decide_eq_true_eq] at hidentity ⊢
  obtain ⟨t, ⟨hmem, hwide⟩, rfl⟩ := hidentity
  have hsize := h.structSize_le hmilder hc hd haligned (mem_definitions_of_mem_types hmem)
  have hwidth := hmilder.maxWidth
  exact ⟨t, ⟨hmem, by omega⟩, rfl⟩

end Package

/-- On the milder platform no struct of a loaded package is larger, no other struct is wide, and
nothing is reported that is not reported on the other one. -/
theorem findings_monotone (source : String) (v : Value) (packages : List Package)
    (hload : loadPackages source v = .ok packages) (p : Package) (hp : p ∈ packages)
    (c d : Config) (hmilder : c.Milder d) (hc : c.Binary) (hd : d.Binary)
    (haligned : p.PowerAligned c) :
    (∀ t ∈ p.types ++ p.imported, ∃ size size',
      ((Sizing.footprint c p.index t).run []).1 = .ok size ∧
      ((Sizing.footprint d p.index t).run []).1 = .ok size' ∧ size ≤ size') ∧
    ∃ wide wide' sites sites',
      ((classify c (Sizing.footprint c p.index) p.types).run []).1 = .ok wide ∧
      ((classify d (Sizing.footprint d p.index) p.types).run []).1 = .ok wide' ∧
      wide ⊆ wide' ∧ (∀ s : Signature, (s.offending wide).Sublist (s.offending wide')) ∧
      p.inspect c = .ok ⟨wide, sites⟩ ∧ p.inspect d = .ok ⟨wide', sites'⟩ ∧
      (sites.map (·.signature)).Sublist (sites'.map (·.signature)) := by
  have hsound := sound_of_loadPackages hload hp
  have hwide := hsound.wideIdentities_subset hmilder hc hd haligned
  constructor
  · intro t hmem
    have hindex : t ∈ p.index.definitions := Package.mem_index_iff.mpr hmem
    refine ⟨_, _, ?_, ?_, hsound.structSize_le hmilder hc hd haligned hindex⟩
    · exact (hsound.yields_footprint c hindex [] (Memo.correct_nil c p.index)).1
    · exact (hsound.yields_footprint d hindex [] (Memo.correct_nil d p.index)).1
  · exact ⟨_, _, _, _, hsound.classify_eq c, hsound.classify_eq d, hwide,
      fun s => s.offending_sublist hwide, hsound.inspect_eq c, hsound.inspect_eq d,
      signatures_sublist hwide p.signatures⟩

def narrowPlatform : Config where
  maxWidth := 32
  wordSize := 4
  maxAlign := 4

def relayFunction : Signature where
  name := "Relay"
  position := ⟨"frames.go", 4, 1⟩
  params := [⟨"p", .named "q.Part" "Part"⟩, ⟨"h", .named "Head" "Head"⟩]
  results := [⟨"", .named "Frame" "Frame"⟩]

def stampFunction : Signature where
  name := "Stamp"
  position := ⟨"frames.go", 9, 1⟩
  receiver := some ⟨"h", .named "Head" "Head"⟩

def framesPackage : Package where
  name := "frames"
  types := [
    ⟨"Head", "Head", [⟨"flag", .scalar { name := "bool", size := 1 }⟩,
      ⟨"label", .scalar { name := "string", words := 2 }⟩]⟩,
    ⟨"Frame", "Frame", [⟨"head", .named "Head" "Head"⟩,
      ⟨"parts", .array (.named "q.Part" "Part") 3⟩]⟩]
  imported := [⟨"q.Part", "Part", [⟨"at", .scalar { name := "int64", size := 8 }⟩,
    ⟨"kind", .scalar { name := "byte", size := 1 }⟩]⟩]
  signatures := [relayFunction, stampFunction]

theorem findings_monotone_frames :
    loadPackages "" (Document.ofPackages [framesPackage]) = .ok [framesPackage] ∧
    narrowPlatform.Milder {} ∧ narrowPlatform.Binary ∧ Config.Binary {} ∧
    framesPackage.PowerAligned narrowPlatform ∧
    ∃ sites sites',
      framesPackage.inspect narrowPlatform = .ok ⟨["Frame"], sites⟩ ∧
      framesPackage.inspect {} = .ok ⟨["Head", "Frame"], sites'⟩ ∧
      (sites.map (·.signature)).Sublist (sites'.map (·.signature)) := by
  have hcheck : framesPackage.check = .ok () :=
    (Package.check_eq_ok_iff_layouts {} (by decide) (by decide)).mpr (by decide)
  have hload : loadPackages "" (Document.ofPackages [framesPackage]) = .ok [framesPackage] :=
    loadPackages_eq_ok rfl (List.forall_mem_singleton.mpr hcheck) ""
  have hmilder : narrowPlatform.Milder {} := ⟨by decide, by decide, by decide⟩
  have hnarrow : narrowPlatform.Binary := ⟨by decide, by decide⟩
  have hbinary : Config.Binary {} := ⟨by decide, by decide⟩
  have haligned : framesPackage.PowerAligned narrowPlatform := by decide
  refine ⟨hload, hmilder, hnarrow, hbinary, haligned, ?_⟩
  obtain ⟨_, wide, wide', sites, sites', hclassify, hclassify', _, _, hsites, hsites', hsublist⟩ :=
    findings_monotone "" _ _ hload framesPackage (by simp) narrowPlatform {} hmilder hnarrow hbinary
      haligned
  have hwide : ((classify narrowPlatform (Sizing.footprint narrowPlatform framesPackage.index)
      framesPackage.types).run []).1 = .ok ["Frame"] := by
    decide +kernel
  have hwide' : ((classify {} (Sizing.footprint {} framesPackage.index)
      framesPackage.types).run []).1 = .ok ["Head", "Frame"] := by
    decide +kernel
  cases hwide.symm.trans hclassify
  cases hwide'.symm.trans hclassify'
  exact ⟨sites, sites', hsites, hsites', hsublist⟩

end CopyLint
