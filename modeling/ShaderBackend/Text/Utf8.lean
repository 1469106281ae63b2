import ShaderBackend.Bytes

/-!
UTF-8. Decoding runs a machine over the bytes that emits one item for each well-formed character
and one for each maximal part that no character starts with. Lossy decoding puts U+FFFD in the place
of such a part, strict decoding refuses the whole text.
-/

namespace ShaderBackend.Text

def toUtf8 (t : Text) : Bytes :=
  t.flatMap String.utf8EncodeChar

/-- Where the decoder stands between two bytes. -/
inductive Utf8State where
  | start
  /-- Inside a character: its bits so far, the bytes still owed, and the range of the next one. -/
  | inside (bits owed : Nat) (low high : UInt8)

namespace Utf8State

/-- What one byte emits (`none` stands for a malformed part) and where the decoder then stands,
from between two characters. -/
def first (b : UInt8) : List (Option Char) × Utf8State :=
  if b < 0x80 then ([some (Char.ofNat b.toNat)], start)
  else if b < 0xc2 then ([none], start)
  else if b < 0xe0 then ([], inside (b.toNat % 0x20) 1 0x80 0xbf)
  else if b == 0xe0 then ([], inside 0 2 0xa0 0xbf)
  else if b == 0xed then ([], inside 0x0d 2 0x80 0x9f)
  else if b < 0xf0 then ([], inside (b.toNat % 0x10) 2 0x80 0xbf)
  else if b == 0xf0 then ([], inside 0 3 0x90 0xbf)
  else if b < 0xf4 then ([], inside (b.toNat % 0x08) 3 0x80 0xbf)
  else if b == 0xf4 then ([], inside 4 3 0x80 0x8f)
  else ([none], start)

/-- One byte from any state. A byte that cannot continue a character ends the malformed part before
it and is read afresh. -/
def step : Utf8State → UInt8 → List (Option Char) × Utf8State
  | start, b => first b
  | inside bits owed low high, b =>
    if low ≤ b ∧ b ≤ high then
      let bits := bits * 0x40 + b.toNat % 0x40
      if owed ≤ 1 then ([some (Char.ofNat bits)], start)
      else ([], inside bits (owed - 1) 0x80 0xbf)
    else
      let (items, next) := first b
      (none :: items, next)

/-- What is emitted for the rest of the bytes; a character cut off by the end is malformed. -/
def run : Utf8State → Bytes → List (Option Char)
  | start, [] => []
  | inside .., [] => [none]
  | state, b :: rest =>
    let (items, next) := step state b
    items ++ run next rest

end Utf8State

/-- Decode with U+FFFD in the place of each malformed part. -/
def ofUtf8Lossy (bytes : Bytes) : Text :=
  (Utf8State.start.run bytes).map (·.getD '�')

/-- Decode a well-formed text. -/
def ofUtf8? (bytes : Bytes) : Option Text :=
  (Utf8State.start.run bytes).mapM id

end ShaderBackend.Text
