import ShaderBackend.Text.Basic

/-!
Byte strings and the little-endian words in them. A word is written as its bytes from the lowest
up; reading takes as many bytes as the word is wide.
-/

namespace ShaderBackend

abbrev Bytes := List UInt8

/-- The least multiple of `align` that is not below `n`. -/
def alignUp (n align : Nat) : Nat :=
  (n + align - 1) / align * align

namespace Bytes

def ofUInt32 (w : UInt32) : Bytes :=
  [w.toUInt8, (w >>> 8).toUInt8, (w >>> 16).toUInt8, (w >>> 24).toUInt8]

/-- The word at the start of a byte string, zero if fewer than four bytes are there. -/
def toUInt32 : Bytes → UInt32
  | a :: b :: c :: d :: _ =>
    a.toUInt32 ||| (b.toUInt32 <<< 8) ||| (c.toUInt32 <<< 16) ||| (d.toUInt32 <<< 24)
  | _ => 0

def word32At (bytes : Bytes) (offset : Nat) : UInt32 :=
  toUInt32 (bytes.drop offset)

def ofUInt64 (w : UInt64) : Bytes :=
  ofUInt32 w.toUInt32 ++ ofUInt32 (w >>> 32).toUInt32

/-- The 64-bit words of a byte string; bytes after the last whole word are dropped. -/
def toWords64 : Bytes → List UInt64
  | a :: b :: c :: d :: e :: f :: g :: h :: rest =>
    ((toUInt32 [a, b, c, d]).toUInt64 ||| ((toUInt32 [e, f, g, h]).toUInt64 <<< 32)) ::
      toWords64 rest
  | _ => []

def ofWords64 (words : List UInt64) : Bytes :=
  words.flatMap ofUInt64

/-- Fill up with zero bytes to a multiple of `align`. -/
def padTo (align : Nat) (data : Bytes) : Bytes :=
  data ++ List.replicate (alignUp data.length align - data.length) 0

/-- The bytes from `start` up to `stop`, if that is a range of the byte string. -/
def slice? (data : Bytes) (start stop : Nat) : Option Bytes :=
  if start ≤ stop ∧ stop ≤ data.length then some ((data.drop start).take (stop - start)) else none

def hexDigit (n : Nat) : Char :=
  (Nat.toDigits 16 n).headD '0'

/-- Two lower-case hexadecimal digits for each byte. -/
def hex (data : Bytes) : Text :=
  data.flatMap fun b => [hexDigit (b.toNat / 16), hexDigit (b.toNat % 16)]

end Bytes

end ShaderBackend
