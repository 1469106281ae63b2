import ShaderBackend.Text.Basic

/-!
Numbers as text. Written numbers are plain decimals, or hexadecimals after `0x` with a least number
of digits. Numbers that are read are 32-bit: an optional `+`, then digits, and a value below
`2 ^ 32`.
-/

namespace ShaderBackend.Text

def decimal (n : Nat) : Text :=
  Nat.toDigits 10 n

def signedDecimal (n : Int) : Text :=
  if n < 0 then '-' :: decimal n.natAbs else decimal n.natAbs

/-- Fill up with a character on the left to a least width. -/
def padLeft (fill : Char) (width : Nat) (t : Text) : Text :=
  List.replicate (width - t.length) fill ++ t

/-- A hexadecimal number with at least `digits` digits after the `0x`. -/
def hexadecimal (digits n : Nat) : Text :=
  "0x" ++ padLeft '0' digits (Nat.toDigits 16 n)

/-- The value of a digit, decimal or hexadecimal in either case. -/
def digitValue? (c : Char) : Option Nat :=
  if '0' ≤ c ∧ c ≤ '9' then some (c.toNat - '0'.toNat)
  else if 'a' ≤ c ∧ c ≤ 'f' then some (c.toNat - 'a'.toNat + 10)
  else if 'A' ≤ c ∧ c ≤ 'F' then some (c.toNat - 'A'.toNat + 10)
  else none

/-- The number that a nonempty run of digits denotes, after what was read before it. -/
def readDigits? (base : Nat) : Nat → Text → Option Nat
  | value, [] => some value
  | value, c :: rest =>
    match digitValue? c with
    | some digit =>
      if digit < base then readDigits? base (value * base + digit) rest else none
    | none => none

/-- Without one leading plus sign. -/
def dropPlus : Text → Text
  | '+' :: rest => rest
  | t => t

/-- A number below `2 ^ 32`, with an optional plus sign. -/
def readNumber? (base : Nat) (t : Text) : Option Nat :=
  match dropPlus t with
  | [] => none
  | digits =>
    match readDigits? base 0 digits with
    | some value => if value < 0x100000000 then some value else none
    | none => none

end ShaderBackend.Text
