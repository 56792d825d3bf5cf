import CopyLint.Files.Tree

/-! The text of a file. Plain characters are read as they stand in the file. -/
namespace CopyLint

def Text.isPlain (c : Char) : Bool :=
  c.toNat < 0x80 && c != '\r'

theorem Text.Utf8.decodeFrom_ascii {bytes : List UInt8} (h : ∀ b ∈ bytes, b.toNat < 0x80)
    (read : List Char) (offset : Nat) :
    decodeFrom read none offset bytes =
      .ok (read.reverse ++ bytes.map fun b => Char.ofNat b.toNat) := by
  induction bytes generalizing read offset with
  | nil =>
    rw [List.map_nil, List.append_nil]
    rfl
  | cons b rest ih =>
    rw [List.forall_mem_cons] at h
    simp only [decodeFrom, h.1, if_true, ih h.2, List.reverse_cons, List.append_assoc,
      List.singleton_append, List.map_cons]

theorem Text.normalizeBreaks_of_not_mem {s : List Char} (h : '\r' ∉ s) (read : List Char) :
    normalizeBreaks read s = read.reverse ++ s := by
  fun_induction normalizeBreaks read s with
  | case1 => simp at h
  | case2 => simp at h
  | case3 read c rest _ _ ih =>
    rw [ih fun hmem => h (List.mem_cons_of_mem c hmem)]
    simp
  | case4 => simp

namespace FileTree

variable {tree : FileTree} {path : Path}

theorem readText_of_hasZero (h : hasZero path) (tree : FileTree) :
    tree.readText path = .error .zeroCharacter := by
  rw [readText, if_pos h]
  rfl

theorem hasZero_of_readText (h : tree.readText path = .error .zeroCharacter) : hasZero path := by
  unfold readText at h
  split at h
  · assumption
  · repeat' split at h
    all_goals cases h

theorem readText_of_find {content : List UInt8} {text : List Char} (hzero : hasZero path = false)
    (hfind : tree.find path = .found (.file content))
    (hdecode : Text.Utf8.decode content = .ok text) :
    tree.readText path = .ok (Text.normalizeBreaks [] text) := by
  simp only [readText, hzero, hfind, hdecode]
  rfl

/-- A file with one byte for each character. -/
def plain (text : List Char) : FileTree :=
  .file (text.map fun c => c.toNat.toUInt8)

theorem readText_plain {text : List Char} (h : text.all Text.isPlain)
    (hzero : hasZero path = false) (hfind : tree.find path = .found (plain text)) :
    tree.readText path = .ok text := by
  simp only [List.all_eq_true, Text.isPlain, Bool.and_eq_true, decide_eq_true_eq, bne_iff_ne] at h
  have hbyte : ∀ c ∈ text, c.toNat.toUInt8.toNat = c.toNat := by
    intro c hc
    have := (h c hc).1
    simp
    omega
  have hbytes : ∀ b ∈ text.map (fun c => c.toNat.toUInt8), b.toNat < 0x80 := by
    rw [List.forall_mem_map]
    intro c hc
    rw [hbyte c hc]
    exact (h c hc).1
  have hchars : (text.map fun c => c.toNat.toUInt8).map (fun b => Char.ofNat b.toNat) = text := by
    rw [List.map_map]
    refine (List.map_congr_left fun c hc => ?_).trans (List.map_id text)
    simp [hbyte c hc]
  have hdecode : Text.Utf8.decode (text.map fun c => c.toNat.toUInt8) = .ok text := by
    rw [Text.Utf8.decode, Text.Utf8.decodeFrom_ascii hbytes, hchars]
    rfl
  have hreturn : '\r' ∉ text := fun hmem => (h _ hmem).2 rfl
  rw [readText_of_find hzero hfind hdecode, Text.normalizeBreaks_of_not_mem hreturn]
  rfl

end FileTree

end CopyLint
