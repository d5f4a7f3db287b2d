/-
Reading UTF-8, with the exact extent of the first fault. The bytes of a character are collected
one by one; they are complete, unfinished or at fault, and nothing after a fault is looked at.
-/
import MailMerge.Text.Quoted

namespace MailMerge.Text.Utf8

/-! ## One character -/

/-- Why bytes are no text. -/
inductive Reason
  | startByte
  | continuationByte
  | endOfData
  deriving DecidableEq, Repr

/-- The wording of a reason. -/
def Reason.message : Reason → String
  | .startByte => "invalid start byte"
  | .continuationByte => "invalid continuation byte"
  | .endOfData => "unexpected end of data"

/-- The bytes from `start` to before `stop`, the first of them `byte`, are no text. -/
structure Fault where
  start : Nat
  stop : Nat
  byte : UInt8
  reason : Reason
  deriving DecidableEq, Repr

/-- The wording of a fault. A single byte is shown; several are not, only where they are. -/
def Fault.message (f : Fault) : String :=
  "'utf-8' codec can't decode " ++
    (if f.stop = f.start + 1 then
      s!"byte 0x{String.ofList (hexDigits 2 f.byte.toNat)} in position {f.start}"
    else s!"bytes in position {f.start}-{f.stop - 1}") ++
    s!": {f.reason.message}"

/-- Whether a byte can continue a character. -/
def isTail (b : UInt8) : Bool :=
  0x80 ≤ b && b ≤ 0xBF

/-- Whether `a` and `b` begin a surrogate, which no text contains. -/
def beginsSurrogate (a b : UInt8) : Bool :=
  a = 0xED && 0xA0 ≤ b && b ≤ 0xBF

/-- Whether `b` can be the second byte of a character that starts with `a`. Excluded are the
longer spellings of smaller characters and what lies above the last plane. -/
def acceptsSecond (a b : UInt8) : Bool :=
  isTail b && (a ≠ 0xE0 || 0xA0 ≤ b) && (a ≠ 0xF0 || 0x90 ≤ b) && (a ≠ 0xF4 || b < 0x90)

/-- What some bytes amount to when all of them but the last are an unfinished character. -/
inductive Sequence
  | complete (c : Char)
  | unfinished
  | fault (length : Nat) (reason : Reason)

/-- The bits that a byte contributes to its character. -/
private def low (bits : Nat) (b : UInt8) : Nat :=
  b.toNat % (1 <<< bits)

/-- Reads the bytes of one character. A surrogate is refused when its third byte is there. -/
def classify : List UInt8 → Sequence
  | [a] =>
    if a < 0x80 then .complete (Char.ofNat a.toNat)
    else if a < 0xC2 || 0xF5 ≤ a then .fault 1 .startByte
    else .unfinished
  | [a, b] =>
    if !acceptsSecond a b then .fault 1 .continuationByte
    else if a < 0xE0 then .complete (Char.ofNat (low 5 a * 64 + low 6 b))
    else .unfinished
  | [a, b, c] =>
    if beginsSurrogate a b then .fault 1 .continuationByte
    else if !isTail c then .fault 2 .continuationByte
    else if a < 0xF0 then .complete (Char.ofNat ((low 4 a * 64 + low 6 b) * 64 + low 6 c))
    else .unfinished
  | [a, b, c, d] =>
    if !isTail d then .fault 3 .continuationByte
    else .complete (Char.ofNat (((low 3 a * 64 + low 6 b) * 64 + low 6 c) * 64 + low 6 d))
  | _ => .unfinished

/-! ## A whole text -/

/-- The characters read so far, the last one first, and the bytes of the one that is not yet
complete, which starts at `start`. -/
structure Decoder where
  decoded : List Char
  held : List UInt8
  start : Nat

namespace Decoder

/-- Nothing was read yet. -/
def empty : Decoder := ⟨[], [], 0⟩

/-- Takes one more byte. -/
def feed (d : Decoder) (b : UInt8) : Except Fault Decoder :=
  let held := d.held ++ [b]
  match classify held with
  | .complete c => .ok ⟨c :: d.decoded, [], d.start + held.length⟩
  | .unfinished => .ok { d with held }
  | .fault length reason => .error ⟨d.start, d.start + length, held.headD b, reason⟩

/-- The text, unless bytes of an unfinished character are left. -/
def finish (d : Decoder) : Except Fault (List Char) :=
  match d.held with
  | [] => .ok d.decoded.reverse
  | [a, b] =>
    if beginsSurrogate a b then .error ⟨d.start, d.start + 1, a, .continuationByte⟩
    else .error ⟨d.start, d.start + 2, a, .endOfData⟩
  | a :: rest => .error ⟨d.start, d.start + rest.length + 1, a, .endOfData⟩

end Decoder

/-- The text that the bytes spell. -/
def decode (bytes : List UInt8) : Except Fault (List Char) := do
  (← bytes.foldlM Decoder.feed .empty).finish

/-! ## A text read in pieces -/

/-- How many bytes are read at a time. -/
def pieceSize : Nat := 8192

/-- Reads bytes piece by piece, after `d`, and gives the text before the first fault. The positions
in a fault count from the start of the piece, with the bytes held over from the piece before it in
front; a fault in a piece hides that whole piece. -/
def decodePieces (d : Decoder) (bytes : List UInt8) : List Char × Option Fault :=
  if bytes = [] then
    match Decoder.finish { d with start := 0 } with
    | .ok text => (text, none)
    | .error fault => (d.decoded.reverse, some fault)
  else
    match (bytes.take pieceSize).foldlM Decoder.feed { d with start := 0 } with
    | .ok d => decodePieces d (bytes.drop pieceSize)
    | .error fault => (d.decoded.reverse, some fault)
termination_by bytes.length
decreasing_by
  have : 0 < bytes.length := List.length_pos_iff.2 ‹_›
  simp only [List.length_drop, pieceSize]; omega

end MailMerge.Text.Utf8
