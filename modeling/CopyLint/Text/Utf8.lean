import CopyLint.Text.Quoted

/-! Bytes as characters. The first byte that rules a character out ends the reading; the fault
covers the bytes of that character that were still right. -/
namespace CopyLint.Text

namespace Utf8

inductive Reason where
  | invalidStart
  | invalidContinuation
  | endOfData
  deriving DecidableEq, Repr

def Reason.message : Reason → String
  | invalidStart => "invalid start byte"
  | invalidContinuation => "invalid continuation byte"
  | endOfData => "unexpected end of data"

structure Fault where
  byte : Nat
  offset : Nat
  length : Nat
  reason : Reason
  deriving DecidableEq, Repr

def Fault.message (fault : Fault) : String :=
  let place :=
    if fault.length = 1 then
      let byte := String.ofList (hexDigits 2 fault.byte)
      s!"byte 0x{byte} in position {fault.offset}"
    else
      let last := fault.offset + fault.length - 1
      s!"bytes in position {fault.offset}-{last}"
  s!"'utf-8' codec can't decode {place}: {fault.reason.message}"

/-- A character of which some bytes are still to come, the next one between `low` and `high`. -/
structure Begun where
  byte : Nat
  offset : Nat
  owed : Nat
  low : Nat := 0x80
  high : Nat := 0xBF
  code : Nat

/-- The second byte of some characters has a narrower range, so that no code point has two
spellings, is half of a pair, or lies beyond the last one. -/
def begin? (offset byte : Nat) : Option Begun :=
  if byte < 0xC2 then none
  else if byte < 0xE0 then some { byte, offset, owed := 1, code := byte - 0xC0 }
  else if byte = 0xE0 then some { byte, offset, owed := 2, code := 0, low := 0xA0 }
  else if byte = 0xED then some { byte, offset, owed := 2, code := 13, high := 0x9F }
  else if byte < 0xF0 then some { byte, offset, owed := 2, code := byte - 0xE0 }
  else if byte = 0xF0 then some { byte, offset, owed := 3, code := 0, low := 0x90 }
  else if byte < 0xF4 then some { byte, offset, owed := 3, code := byte - 0xF0 }
  else if byte = 0xF4 then some { byte, offset, owed := 3, code := 4, high := 0x8F }
  else none

def Begun.fault (b : Begun) (offset : Nat) (reason : Reason) : Fault :=
  ⟨b.byte, b.offset, offset - b.offset, reason⟩

def decodeFrom (read : List Char) (begun : Option Begun) (offset : Nat) :
    List UInt8 → Except Fault (List Char)
  | [] =>
    match begun with
    | none => pure read.reverse
    | some b => throw (b.fault offset .endOfData)
  | next :: rest =>
    let byte := next.toNat
    match begun with
    | none =>
      if byte < 0x80 then decodeFrom (Char.ofNat byte :: read) none (offset + 1) rest
      else
        match begin? offset byte with
        | some b => decodeFrom read (some b) (offset + 1) rest
        | none => throw ⟨byte, offset, 1, .invalidStart⟩
    | some b =>
      if b.low ≤ byte ∧ byte ≤ b.high then
        let code := b.code * 64 + byte % 64
        if b.owed = 1 then decodeFrom (Char.ofNat code :: read) none (offset + 1) rest
        else
          decodeFrom read (some ⟨b.byte, b.offset, b.owed - 1, 0x80, 0xBF, code⟩) (offset + 1) rest
      else throw (b.fault offset .invalidContinuation)

def decode (bytes : List UInt8) : Except Fault (List Char) :=
  decodeFrom [] none 0 bytes

end Utf8

/-- Both other spellings of a line break become the single character. -/
def normalizeBreaks (read : List Char) : List Char → List Char
  | '\r' :: '\n' :: rest => normalizeBreaks ('\n' :: read) rest
  | '\r' :: rest => normalizeBreaks ('\n' :: read) rest
  | c :: rest => normalizeBreaks (c :: read) rest
  | [] => read.reverse

end CopyLint.Text
