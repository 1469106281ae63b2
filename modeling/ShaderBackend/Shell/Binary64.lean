import ShaderBackend.Text.Number

/-!
Numbers with a fraction. A number is read as the nearest one that has 53 significant bits, half way
as the even one, and written from its exact value.
-/

namespace ShaderBackend.Shell

inductive Binary64 where
  /-- The number `mantissa * 2 ^ exponent`. -/
  | finite (isNegative : Bool) (mantissa : Nat) (exponent : Int)
  | infinite (isNegative : Bool)
  | notNumber (isNegative : Bool)
  deriving DecidableEq, Repr

structure Ratio where
  numerator : Nat
  denominator : Nat
  deriving DecidableEq, Repr

namespace Ratio

def scaled (n base : Nat) (exponent : Int) : Ratio :=
  { numerator := n * Nat.pow base exponent.toNat
    denominator := Nat.pow base (-exponent).toNat }

def divide (a b : Ratio) : Ratio :=
  { numerator := a.numerator * b.denominator, denominator := a.denominator * b.numerator }

/-- The nearest whole number, half way the even one. -/
def round (r : Ratio) : Nat :=
  let quotient := r.numerator / r.denominator
  let twice := 2 * (r.numerator % r.denominator)
  if r.denominator < twice ∨ (r.denominator = twice ∧ quotient % 2 = 1) then quotient + 1
  else quotient

def isWhole (r : Ratio) : Bool :=
  r.numerator % r.denominator == 0

/-- The exponent of the greatest power of ten that is not above the ratio. -/
def decimalExponent (r : Ratio) : Int :=
  let guess : Int := (Nat.toDigits 10 r.numerator).length - (Nat.toDigits 10 r.denominator).length
  if (r.divide (scaled 1 10 guess)).numerator < (r.divide (scaled 1 10 guess)).denominator then
    guess - 1
  else guess

end Ratio

namespace Binary64

def leastExponent : Int := -1074

/-- The number next to a ratio, and whether it is too large or too small to be near it. -/
def nearest (isNegative : Bool) (r : Ratio) : Binary64 × Bool :=
  if r.numerator = 0 then (finite isNegative 0 0, false)
  else
    let guess : Int := (Nat.log2 r.numerator : Int) - Nat.log2 r.denominator - 53
    let whole := r.divide (Ratio.scaled 1 2 guess)
    let exact := if whole.numerator / whole.denominator < 0x20000000000000 then guess else guess + 1
    let exponent := max leastExponent exact
    let unit := r.divide (Ratio.scaled 1 2 exponent)
    let mantissa := unit.round
    let limit := Ratio.scaled 1 2 (1024 - exponent)
    if limit.numerator ≤ mantissa * limit.denominator then (infinite isNegative, true)
    else (finite isNegative mantissa exponent, exact < leastExponent && ! unit.isWhole)

structure Reading where
  value : Binary64
  rest : Text
  isOutOfRange : Bool := false

/-- A whole number with a sign after one of two letters, with how much of the text it takes. -/
def readExponent (letter : Char) : Text → Int × Nat
  | c :: rest =>
    if c.toLower == letter then
      let (sign, digits, length) := match rest with
        | '-' :: digits => ((-1 : Int), digits, 2)
        | '+' :: digits => (1, digits, 2)
        | digits => (1, digits, 1)
      let good := digits.takeWhile Char.isDigit
      if good.isEmpty then (0, 0)
      else
        let n : Nat := good.foldl (fun n c => n * 10 + (c.toNat - '0'.toNat)) 0
        (sign * n, length + good.length)
    else (0, 0)
  | [] => (0, 0)

/-- The exponents of ten or two beyond which every number is too large or too small. -/
def exponentLimit : Int := 20000

/-- Digits with a point among them and an exponent after them; `none` if there is no digit. -/
def readDigits? (base scale : Nat) (perDigit : Int) (letter : Char) (isNegative : Bool) (t : Text) :
    Option Reading :=
  let isGood (c : Char) : Bool := (Text.digitValue? c).getD base < base
  let whole := t.takeWhile isGood
  let afterWhole := t.drop whole.length
  let part := match afterWhole with
    | '.' :: digits => digits.takeWhile isGood
    | _ => []
  if whole.isEmpty && part.isEmpty then none
  else
    let rest := match afterWhole with
      | '.' :: digits => digits.drop part.length
      | rest => rest
    let (exponent, length) := readExponent letter rest
    let n := (whole ++ part).foldl (fun n c => n * base + (Text.digitValue? c).getD 0) 0
    let exponent := exponent - perDigit * part.length
    let bounded := max (-exponentLimit - t.length) (min (exponentLimit + t.length) exponent)
    let (value, isOutOfRange) := nearest isNegative (Ratio.scaled n scale bounded)
    some { value, rest := rest.drop length, isOutOfRange }

/-- What follows a word in a text, whatever the case of its letters. -/
def afterWord? (word t : Text) : Option Text :=
  if (t.take word.length).map Char.toLower = word then some (t.drop word.length) else none

/-- What may stand in parentheses after a text that is not a number. -/
def dropRemark (t : Text) : Text :=
  match t with
  | '(' :: rest =>
    match rest.dropWhile fun c => c.isAlphanum || c == '_' with
    | ')' :: after => after
    | _ => t
  | _ => t

/-- A number without its sign. -/
def readUnsigned? (isNegative : Bool) (t : Text) : Option Reading :=
  match afterWord? "infinity" t, afterWord? "inf" t, afterWord? "nan" t with
  | some rest, _, _ | none, some rest, _ => some { value := infinite isNegative, rest }
  | none, none, some rest => some { value := notNumber isNegative, rest := dropRemark rest }
  | none, none, none =>
    let hexadecimal := match t with
      | '0' :: 'x' :: rest | '0' :: 'X' :: rest => readDigits? 16 2 4 'p' isNegative rest
      | _ => none
    hexadecimal.orElse fun _ => readDigits? 10 10 1 'e' isNegative t

def read? : Text → Option Reading
  | '-' :: rest => readUnsigned? true rest
  | '+' :: rest => readUnsigned? false rest
  | t => readUnsigned? false t

def isNegative : Binary64 → Bool
  | finite negative _ _ | infinite negative | notNumber negative => negative

/-- The digits of a number, with a point before the last of them. -/
def pointed (places : Nat) (keepsPoint : Bool) (n : Nat) : Text :=
  let digits := Text.padLeft '0' (places + 1) (Text.decimal n)
  let whole := digits.take (digits.length - places)
  if places = 0 then if keepsPoint then whole ++ ['.'] else whole
  else whole ++ '.' :: digits.drop (digits.length - places)

def fixed (r : Ratio) (places : Nat) (keepsPoint : Bool) : Text :=
  let whole := r.divide (Ratio.scaled 1 10 (-(places : Int)))
  pointed places keepsPoint whole.round

/-- The digits of a number up to some places after the first, and the exponent of the first. -/
def scientificParts (r : Ratio) (places : Nat) : Nat × Int :=
  if r.numerator = 0 then (0, 0)
  else
    let exponent := r.decimalExponent
    let n := (r.divide (Ratio.scaled 1 10 (exponent - places))).round
    if n < Nat.pow 10 (places + 1) then (n, exponent) else (n / 10, exponent + 1)

def exponentText (letter : Char) (width : Nat) (exponent : Int) : Text :=
  letter :: (if exponent < 0 then '-' else '+') ::
    Text.padLeft '0' width (Text.decimal exponent.natAbs)

def scientific (r : Ratio) (places : Nat) (keepsPoint : Bool) : Text :=
  let (n, exponent) := scientificParts r places
  pointed places keepsPoint n ++ exponentText 'e' 2 exponent

/-- Without the zeros at the end of the part after the point, and without a point at the end. -/
def dropZeros (t : Text) : Text :=
  if t.contains '.' then
    match t.reverse.dropWhile (· == '0') with
    | '.' :: rest => rest.reverse
    | rest => rest.reverse
  else t

/-- A number with a number of significant digits, whichever way is shorter. -/
def general (r : Ratio) (digits : Nat) (keepsZeros : Bool) : Text :=
  let digits := max 1 digits
  let trimmed (t : Text) : Text := if keepsZeros then t else dropZeros t
  let (n, exponent) := scientificParts r (digits - 1)
  if -4 ≤ exponent ∧ exponent < digits then
    trimmed (fixed r ((digits : Int) - 1 - exponent).toNat keepsZeros)
  else trimmed (pointed (digits - 1) keepsZeros n) ++ exponentText 'e' 2 exponent

/-- A number by its bits: the first of them before the point, the others in hexadecimal. -/
def hexadecimal (mantissa : Nat) (exponent : Int) (places : Option Nat) (keepsPoint : Bool) :
    Text :=
  let first := max (exponent + Nat.log2 mantissa) (-1022)
  let fraction := (Ratio.scaled mantissa 2 (exponent - first + 52)).round
  let places' := places.getD 13
  let n := (Ratio.scaled fraction 2 (4 * (places' : Int) - 52)).round
  let digits := Text.padLeft '0' (places' + 1) (Nat.toDigits 16 n)
  let whole := digits.take (digits.length - places')
  let part := digits.drop (digits.length - places')
  let part := if places.isSome then part else (part.reverse.dropWhile (· == '0')).reverse
  let point : Text := if part.isEmpty && ! keepsPoint then [] else ['.']
  let first := if mantissa = 0 then 0 else first
  "0x" ++ whole ++ point ++ part ++ exponentText 'p' 1 first

/-- How a number is written, by the letter of a conversion in lower case, and whether it has
digits. -/
def write (x : Binary64) (kind : Char) (precision : Option Nat) (alternate : Bool) : Text × Bool :=
  match x with
  | infinite _ => ("inf", false)
  | notNumber _ => ("nan", false)
  | finite _ mantissa exponent =>
    let r := Ratio.scaled mantissa 2 exponent
    let t := match kind with
      | 'f' => fixed r (precision.getD 6) alternate
      | 'e' => scientific r (precision.getD 6) alternate
      | 'g' => general r (precision.getD 6) alternate
      | _ => hexadecimal mantissa exponent precision alternate
    (t, true)

end Binary64

end ShaderBackend.Shell
