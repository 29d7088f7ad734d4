import AgentFlow.Text.Utf16

/-!
# Text in bytes

JSON may be sent in units of one, two or four bytes.  The sender need not say which: a byte order
mark tells, and without one the zero bytes at the start do, because JSON starts with two characters
of ASCII.

## Main definitions

* `ByteOrder`, `Encoding`: how the characters of a text are laid out.
* `Encoding.detect`: the encoding of a text, and its bytes behind the mark.
* `Encoding.decode?`: the text of bytes in an encoding.
* `Encoding.text?`: the text of bytes.
-/

namespace AgentFlow

/-- The order of the bytes of a unit. -/
inductive ByteOrder where
  /-- The highest byte comes first. -/
  | big
  /-- The lowest byte comes first. -/
  | little
  deriving DecidableEq, Repr

/-- The value of the bytes of one unit. -/
def ByteOrder.value (o : ByteOrder) (bytes : List UInt8) : Nat :=
  let ordered :=
    match o with
    | .big => bytes
    | .little => bytes.reverse
  ordered.foldl (fun n b => 256 * n + b.toNat) 0

/-- How the characters of a text are laid out in bytes. -/
inductive Encoding where
  /-- One to four bytes a character. -/
  | utf8
  /-- Units of two bytes, one or two a character. -/
  | utf16 (order : ByteOrder)
  /-- Units of four bytes, one a character. -/
  | utf32 (order : ByteOrder)
  deriving DecidableEq, Repr

namespace Encoding

/-- The byte order marks.  The mark of four bytes comes before the one that begins it. -/
def marks : List (List UInt8 × Encoding) :=
  [([0x00, 0x00, 0xfe, 0xff], .utf32 .big), ([0xff, 0xfe, 0x00, 0x00], .utf32 .little),
    ([0xfe, 0xff], .utf16 .big), ([0xff, 0xfe], .utf16 .little), ([0xef, 0xbb, 0xbf], .utf8)]

/-- The encoding of a text without a mark, by where its first bytes are zero. -/
def guess : List UInt8 → Encoding
  | a :: b :: c :: d :: _ =>
    if a = 0 then if b = 0 then .utf32 .big else .utf16 .big
    else if b = 0 then if c = 0 ∧ d = 0 then .utf32 .little else .utf16 .little
    else .utf8
  | [a, b] => if a = 0 then .utf16 .big else if b = 0 then .utf16 .little else .utf8
  | _ => .utf8

/-- The encoding of a text, and its bytes behind the mark. -/
def detect (bytes : List UInt8) : Encoding × List UInt8 :=
  match marks.find? fun m => m.1.isPrefixOf bytes with
  | some (mark, e) => (e, bytes.drop mark.length)
  | none => (guess bytes, bytes)

/-- The units of two bytes, if no byte is left over. -/
def units16? (o : ByteOrder) : List UInt8 → Option (List Nat)
  | [] => some []
  | [_] => none
  | a :: b :: bytes => (units16? o bytes).map (o.value [a, b] :: ·)

/-- The units of four bytes, if no byte is left over. -/
def units32? (o : ByteOrder) : List UInt8 → Option (List Nat)
  | [] => some []
  | a :: b :: c :: d :: bytes => (units32? o bytes).map (o.value [a, b, c, d] :: ·)
  | _ => none

/-- The character with a number, if the number is small enough to be one. -/
def scalar? (n : Nat) : Option Char :=
  if n < 0x110000 then some (unitChar n) else none

/-- The text of bytes in an encoding. -/
def decode? (bytes : List UInt8) : Encoding → Option String
  | .utf8 => String.fromUTF8? ⟨bytes.toArray⟩
  | .utf16 o => (units16? o bytes).map fun us => String.ofList (Utf16.chars us)
  | .utf32 o => do
    let cs ← (← units32? o bytes).mapM scalar?
    return String.ofList cs

/-- The text of bytes. -/
def text? (bytes : List UInt8) : Option String :=
  let (e, rest) := detect bytes
  decode? rest e

end Encoding

end AgentFlow
