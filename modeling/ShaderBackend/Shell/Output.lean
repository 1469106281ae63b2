import ShaderBackend.Shell.Binary64
import ShaderBackend.Text.Number

/-!
What the writing commands write: escapes, and formats with conversions.
-/

namespace ShaderBackend.Shell

def isOctal (c : Char) : Bool :=
  '0' ≤ c && c ≤ '7'

def octalChar (digits : Text) : Char :=
  Char.ofNat (digits.foldl (fun n c => n * 8 + (c.toNat - '0'.toNat)) 0 % 256)

def escapeChar? : Char → Option Char
  | '\\' => some '\\'
  | 'a' => some '\x07'
  | 'b' => some '\x08'
  | 'e' => some '\x1b'
  | 'f' => some '\x0c'
  | 'n' => some '\n'
  | 'r' => some '\r'
  | 't' => some '\t'
  | 'v' => some '\x0b'
  | _ => none

/-- The character of an escape after its backslash, and the text after it; `none` if the text is not
one, so that the backslash stands for itself. -/
def escape? : Text → Option (Char × Text)
  | [] => none
  | c :: rest =>
    if isOctal c then
      let digits := (c :: rest.takeWhile isOctal).take 3
      some (octalChar digits, rest.drop (digits.length - 1))
    else (escapeChar? c).map (·, rest)

/-- Text with escapes, and whether an escape ended all output. At most `fuel` characters are
left. -/
def unescape : Nat → Text → Text × Bool
  | 0, _ => ([], false)
  | _, [] => ([], false)
  | _ + 1, ['\\'] => (['\\'], false)
  | _ + 1, '\\' :: 'c' :: _ => ([], true)
  | fuel + 1, '\\' :: '0' :: rest =>
    let digits := (rest.takeWhile isOctal).take 3
    let (t, ended) := unescape fuel (rest.drop digits.length)
    (octalChar digits :: t, ended)
  | fuel + 1, '\\' :: rest =>
    match escape? rest with
    | some (c, rest) =>
      let (t, ended) := unescape fuel rest
      (c :: t, ended)
    | none =>
      let (t, ended) := unescape fuel rest
      ('\\' :: t, ended)
  | fuel + 1, c :: rest =>
    let (t, ended) := unescape fuel rest
    (c :: t, ended)

/-- The arguments with blanks between them and a line feed at the end, which `-n` leaves out. -/
def echo (args : List Text) (withEscapes : Bool) : Text :=
  let (args, newline) := match args with
    | ['-', 'n'] :: rest => (rest, false)
    | _ => (args, true)
  let text := List.intercalate " " args
  let (t, ended) := if withEscapes then unescape text.length text else (text, false)
  if newline && ! ended then t ++ ['\n'] else t

structure Conversion where
  flags : Text := []
  width : Nat := 0
  precision : Option Nat := none
  kind : Char
  deriving DecidableEq, Repr

structure Formatted where
  text : Text := []
  complaints : List Text := []
  /-- The arguments that are left. -/
  args : List Text
  /-- Why no more is written. -/
  refusal : Option Text := none
  ended : Bool := false
  deriving DecidableEq, Repr

namespace Conversion

def pad (c : Conversion) (t : Text) : Text :=
  let gap := List.replicate (c.width - t.length) ' '
  if c.flags.contains '-' then t ++ gap else gap ++ t

/-- A number with its sign in front, filled up with zeros if that is asked for. -/
def padSigned (c : Conversion) (sign digits : Text) (fillsZeros : Bool) : Text :=
  if c.flags.contains '0' && ! c.flags.contains '-' && fillsZeros then
    sign ++ Text.padLeft '0' (c.width - sign.length) digits
  else c.pad (sign ++ digits)

/-- A whole number, with as many digits as the precision asks for. -/
def padNumber (c : Conversion) (sign digits : Text) : Text :=
  match c.precision with
  | some p => c.padSigned sign (Text.padLeft '0' p digits) false
  | none => c.padSigned sign digits true

def sign (c : Conversion) (isNegative : Bool) : Text :=
  if isNegative then "-" else if c.flags.contains '+' then "+"
  else if c.flags.contains ' ' then " " else []

def bits (n : Int) : Nat :=
  (n % 0x10000000000000000).toNat

/-- The digits of a number, of which zero has none if none are asked for. -/
def digits (c : Conversion) (base n : Nat) : Text :=
  if n = 0 ∧ c.precision = some 0 then [] else Nat.toDigits base n

def number (c : Conversion) (n : Int) : Text :=
  let isMarked := c.flags.contains '#'
  match c.kind with
  | 'x' => c.padNumber (if isMarked && n != 0 then "0x" else []) (c.digits 16 (bits n))
  | 'X' =>
    c.padNumber (if isMarked && n != 0 then "0X" else []) ((c.digits 16 (bits n)).map Char.toUpper)
  | 'o' =>
    let digits := c.digits 8 (bits n)
    c.padNumber [] (if isMarked && digits.head? != some '0' then '0' :: digits else digits)
  | 'u' => c.padNumber [] (c.digits 10 (bits n))
  | _ => c.padNumber (c.sign (n < 0)) (c.digits 10 n.natAbs)

/-- A number with a fraction. Zeros stand after the mark of a hexadecimal one. -/
def real (c : Conversion) (x : Binary64) : Text :=
  let (t, hasDigits) := x.write c.kind.toLower c.precision (c.flags.contains '#')
  let t := if c.kind.isUpper then t.map Char.toUpper else t
  let marks := if c.kind.toLower == 'a' && hasDigits then 2 else 0
  c.padSigned (c.sign x.isNegative ++ t.take marks) (t.drop marks) hasDigits

end Conversion

def isBlankChar (c : Char) : Bool :=
  c == ' ' || ('\t' ≤ c && c ≤ '\r')

/-- Digits after a sign, in the base that the first of them tell, and the text after them; `none` if
there is no digit. -/
def readInteger? (t : Text) : Option (Int × Text) :=
  let (sign, digits) := match t with
    | '-' :: rest => ((-1 : Int), rest)
    | '+' :: rest => (1, rest)
    | _ => (1, t)
  let isHex (t : Text) : Bool := t.head?.any fun c => (Text.digitValue? c).isSome
  let (base, digits) := match digits with
    | '0' :: 'x' :: rest | '0' :: 'X' :: rest => if isHex rest then (16, rest) else (8, digits)
    | '0' :: _ => (8, digits)
    | _ => (10, digits)
  let good := digits.takeWhile fun c => (Text.digitValue? c).getD base < base
  if good.isEmpty then none
  else
    let n := good.foldl (fun n c => n * base + (Text.digitValue? c).getD 0) 0
    some (sign * n, digits.drop good.length)

/-- The nearest number in the range of 64 bits, and whether it is another one. Numbers without a
sign go round at zero. -/
def fit (isSigned : Bool) (n : Int) : Int × Bool :=
  if isSigned then
    if n < -0x8000000000000000 then (-0x8000000000000000, true)
    else if n ≥ 0x8000000000000000 then (0x7fffffffffffffff, true)
    else (n, false)
  else if n.natAbs ≥ 0x10000000000000000 then (0xffffffffffffffff, true)
  else (n, false)

/-- What is wrong with an argument of which a part was read. -/
def complaintAbout (arg rest : Text) (isOutOfRange : Bool) : List Text :=
  if ! rest.isEmpty then [arg ++ ": not completely converted"]
  else if isOutOfRange then [arg ++ ": Numerical result out of range"]
  else []

/-- The number of an argument, and what is wrong with it. A quote asks for the number of the
character after it. -/
def argumentNumber (isSigned : Bool) (arg : Text) : Int × List Text :=
  match arg with
  | '\'' :: rest | '"' :: rest => ((rest.headD '\x00').toNat, [])
  | [] => (0, [])
  | _ =>
    match readInteger? (arg.dropWhile isBlankChar) with
    | none => (0, [arg ++ ": expected numeric value"])
    | some (n, rest) =>
      let (value, isOutOfRange) := fit isSigned n
      (value, complaintAbout arg rest isOutOfRange)

/-- The number with a fraction of an argument, and what is wrong with it. -/
def argumentReal (arg : Text) : Binary64 × List Text :=
  match arg with
  | '\'' :: rest | '"' :: rest => (.finite false (rest.headD '\x00').toNat 0, [])
  | [] => (.finite false 0 0, [])
  | _ =>
    match Binary64.read? (arg.dropWhile isBlankChar) with
    | none => (.finite false 0 0, [arg ++ ": expected numeric value"])
    | some r => (r.value, complaintAbout arg r.rest r.isOutOfRange)

/-- A width or precision that is an argument, in the range of 32 bits. -/
def argumentSize (args : List Text) : Int × List Text :=
  let (n, complaints) := argumentNumber true (args.headD [])
  ((Int32.ofInt n).toInt, complaints)

/-- A conversion that was read, with what is left. -/
structure ReadConversion where
  /-- The conversion and the text after it; `none` if the format ends before its letter. -/
  conversion : Option (Conversion × Text)
  args : List Text
  complaints : List Text

def readConversion (t : Text) (args : List Text) : ReadConversion :=
  let flags := t.takeWhile fun c => c == '-' || c == '+' || c == ' ' || c == '#' || c == '0'
  let t := t.drop flags.length
  let (width, wrongWidth, t, args) := match t with
    | '*' :: rest =>
      let (n, complaints) := argumentSize args
      (n, complaints, rest, args.tail)
    | _ =>
      let digits := t.takeWhile Char.isDigit
      (((Text.readNumber? 10 digits).getD 0 : Int), [], t.drop digits.length, args)
  let (precision, wrongPrecision, t, args) := match t with
    | '.' :: '*' :: rest =>
      let (n, complaints) := argumentSize args
      (if n < 0 then none else some n.toNat, complaints, rest, args.tail)
    | '.' :: rest =>
      let digits := rest.takeWhile Char.isDigit
      (some ((Text.readNumber? 10 digits).getD 0), [], rest.drop digits.length, args)
    | _ => (none, [], t, args)
  let flags := if width < 0 then '-' :: flags else flags
  let conversion := match t with
    | kind :: rest => some ({ flags, width := width.natAbs, precision, kind }, rest)
    | [] => none
  { conversion, args, complaints := wrongWidth ++ wrongPrecision }

def Formatted.add (f : Formatted) (t : Text) : Formatted :=
  { f with text := f.text ++ t }

def realKinds : Text := "aAeEfFgG"

def convert (f : Formatted) (c : Conversion) : Formatted :=
  let arg := f.args.headD []
  let f := { f with args := f.args.tail }
  match c.kind with
  | 's' => f.add (c.pad (match c.precision with | some p => arg.take p | none => arg))
  | 'b' =>
    let (t, ended) := unescape arg.length arg
    { f.add (c.pad (match c.precision with | some p => t.take p | none => t)) with ended }
  | 'c' => f.add (c.pad [arg.headD '\x00'])
  | kind =>
    let (t, complaints) :=
      if realKinds.contains kind then
        let (x, complaints) := argumentReal arg
        (c.real x, complaints)
      else
        let (n, complaints) := argumentNumber (kind == 'd' || kind == 'i') arg
        (c.number n, complaints)
    { f.add t with complaints := f.complaints ++ complaints }

def conversionKinds : Text :=
  "sbcdiouxX" ++ realKinds

def formatOnce : Nat → Text → Formatted → Formatted
  | 0, _, f => f
  | _, [], f => f
  | fuel + 1, '%' :: '%' :: rest, f => formatOnce fuel rest (f.add ['%'])
  | fuel + 1, '%' :: rest, f =>
    let read := readConversion rest f.args
    let f := { f with args := read.args, complaints := f.complaints ++ read.complaints }
    match read.conversion with
    | some (c, after) =>
      if conversionKinds.contains c.kind then
        let f := convert f c
        if f.ended then f else formatOnce fuel after f
      else
        let written := rest.take (rest.length - after.length)
        { f with refusal := some ("%" ++ written ++ ": invalid directive") }
    | none => { f with refusal := some "missing format character" }
  | fuel + 1, '\\' :: rest, f =>
    match escape? rest with
    | some (c, rest) => formatOnce fuel rest (f.add [c])
    | none => formatOnce fuel rest (f.add ['\\'])
  | fuel + 1, c :: rest, f => formatOnce fuel rest (f.add [c])

def formatAll : Nat → Text → Formatted → Formatted
  | 0, _, f => f
  | fuel + 1, format, before =>
    let f := formatOnce format.length format before
    if f.args.isEmpty || f.args.length == before.args.length || f.ended || f.refusal.isSome then f
    else formatAll fuel format f

def format (template : Text) (args : List Text) : Formatted :=
  formatAll (args.length + 1) template { args }

end ShaderBackend.Shell
