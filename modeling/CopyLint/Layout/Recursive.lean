import CopyLint.Layout.Basic

/-! Layouts by recursion on what a definition embeds. Nothing is remembered and every definition is
laid out wherever it occurs, so this is how a layout is defined and not how it is found. -/
namespace CopyLint

namespace Layout

def place (sofar field : Layout) : Layout :=
  ⟨roundUp sofar.size field.align + field.size, max sofar.align field.align⟩

def ofFields (fields : List Layout) : Layout :=
  let placed := fields.foldl place ⟨0, 1⟩
  ⟨roundUp placed.size placed.align, placed.align⟩

def ofElements (elem : Layout) (length : Int) : Layout :=
  ⟨if length ≤ 0 then 0 else roundUp elem.size elem.align * (length - 1) + elem.size, elem.align⟩

end Layout

def TypeRef.layout? (config : Config) (inner : String → Option Layout) : TypeRef → Option Layout
  | .scalar s => some ⟨s.bytes config.wordSize, config.cap (s.naturalAlign config.wordSize)⟩
  | .named identity _ => inner identity
  | .pointer _ _ | .rawPointer _ => some ⟨config.wordSize, config.cap config.wordSize⟩
  | .array elem length => (elem.layout? config inner).map (Layout.ofElements · length)
  | .unsupported => none

namespace Index

def layoutWithin (config : Config) (index : Index) : Nat → String → Option Layout
  | 0, _ => none
  | depth + 1, identity => do
    let t ← index.find? identity
    let fields ← t.fields.mapM fun field =>
      field.type.layout? config (index.layoutWithin config depth)
    pure (Layout.ofFields fields)

/-- A definition that does not embed itself has fewer levels below it than the index has
definitions. -/
def layout? (config : Config) (index : Index) (identity : String) : Option Layout :=
  index.layoutWithin config index.definitions.length identity

end Index

theorem TypeRef.layout?_mono {config : Config} {inner inner' : String → Option Layout}
    (hinner : ∀ identity layout, inner identity = some layout → inner' identity = some layout) :
    ∀ (ref : TypeRef) (layout : Layout),
      ref.layout? config inner = some layout → ref.layout? config inner' = some layout
  | .scalar _, _, h => h
  | .named identity _, layout, h => hinner identity layout h
  | .pointer _ _, _, h => h
  | .rawPointer _, _, h => h
  | .array elem length, layout, h => by
    obtain ⟨found, hfound, rfl⟩ := Option.map_eq_some_iff.mp h
    exact Option.map_eq_some_iff.mpr ⟨found, layout?_mono hinner elem found hfound, rfl⟩
  | .unsupported, _, h => h

theorem mapM_mono {α β : Type} {f g : α → Option β}
    (hfg : ∀ a b, f a = some b → g a = some b) :
    ∀ (as : List α) (bs : List β), as.mapM f = some bs → as.mapM g = some bs
  | [], bs, h => by simpa using h
  | a :: as, bs, h => by
    rw [List.mapM_cons] at h ⊢
    obtain ⟨b, hb, h⟩ := Option.bind_eq_some_iff.mp h
    obtain ⟨rest, hrest, h⟩ := Option.bind_eq_some_iff.mp h
    exact Option.bind_eq_some_iff.mpr ⟨b, hfg a b hb,
      Option.bind_eq_some_iff.mpr ⟨rest, mapM_mono hfg as rest hrest, h⟩⟩

theorem Index.layoutWithin_succ {config : Config} {index : Index} :
    ∀ (depth : Nat) (identity : String) (layout : Layout),
      index.layoutWithin config depth identity = some layout →
        index.layoutWithin config (depth + 1) identity = some layout
  | 0, _, _, h => by simp [layoutWithin] at h
  | depth + 1, identity, layout, h => by
    rw [layoutWithin] at h ⊢
    obtain ⟨t, ht, h⟩ := Option.bind_eq_some_iff.mp h
    obtain ⟨fields, hfields, h⟩ := Option.bind_eq_some_iff.mp h
    refine Option.bind_eq_some_iff.mpr ⟨t, ht, Option.bind_eq_some_iff.mpr ⟨fields, ?_, h⟩⟩
    exact mapM_mono (fun field found =>
      field.type.layout?_mono (layoutWithin_succ depth) found) t.fields fields hfields

end CopyLint
