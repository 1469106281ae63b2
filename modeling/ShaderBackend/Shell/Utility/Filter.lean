import ShaderBackend.Shell.Pattern
import ShaderBackend.Shell.Utility.Basic

/-!
Programs that write a part of what they read, or count it, or replace characters in it.
-/

namespace ShaderBackend.Shell.Utility

variable {m : Type → Type} [Monad m] [FileSystem m]

def readCount? : Text → Option (Option Char × Nat)
  | '+' :: digits => (Text.readNumber? 10 digits).map (some '+', ·)
  | '-' :: digits => (Text.readNumber? 10 digits).map (some '-', ·)
  | digits => (Text.readNumber? 10 digits).map (none, ·)

structure Extent where
  inBytes : Bool := false
  sign : Option Char := none
  count : Nat := 10

/-- The extent that options ask for; a number after a dash counts lines. -/
def readExtent (args : List Text) : Except Text (Extent × List Text) :=
  let args := match args with
    | ('-' :: c :: rest) :: more =>
      if c.isDigit then "-n".toList :: (c :: rest) :: more else args
    | _ => args
  let a := Arguments.read { flags := "qvz", valued := "nc" } args
  match a.stop with
  | some (.refused what) => .error what
  | _ =>
    let read (inBytes : Bool) (t : Text) : Except Text (Extent × List Text) :=
      match readCount? t with
      | some (sign, count) => .ok ({ inBytes, sign, count }, a.operands)
      | none =>
        let unit : Text := if inBytes then "bytes" else "lines"
        .error ("invalid number of " ++ unit ++ ": '" ++ t ++ "'")
    match a.value? 'c', a.value? 'n' with
    | some t, _ => read true t
    | none, some t => read false t
    | none, none => .ok ({}, a.operands)

def Extent.head (e : Extent) (bytes : Bytes) : Bytes :=
  let lines := byteLines bytes
  match e.inBytes, e.sign with
  | true, some '-' => bytes.take (bytes.length - e.count)
  | true, _ => bytes.take e.count
  | false, some '-' => (lines.take (lines.length - e.count)).flatten
  | false, _ => (lines.take e.count).flatten

def Extent.tail (e : Extent) (bytes : Bytes) : Bytes :=
  let lines := byteLines bytes
  match e.inBytes, e.sign with
  | true, some '+' => bytes.drop (e.count - 1)
  | true, _ => bytes.drop (bytes.length - e.count)
  | false, some '+' => (lines.drop (e.count - 1)).flatten
  | false, _ => (lines.drop (lines.length - e.count)).flatten

/-- Write an extent of each file, with the name above it if there are several. -/
def extents (program : Text) (cut : Bytes → Bytes) (withNames : Bool) :
    Bool → List Text → Run m Nat
  | _, [] => return 0
  | isFirst, path :: rest => do
    match ← contents path with
    | .ok bytes =>
      let shown : Text := if path = "-" then "standard input" else path
      let title : Text := (if isFirst then [] else "\n".toList) ++ "==> " ++ shown ++ " <==\n"
      let status ← put program ((if withNames then toBytes title else []) ++ cut bytes)
      return max status (← extents program cut withNames false rest)
    | .error reason =>
      let what : Text := if reason = "Is a directory" then
          "error reading '" ++ path ++ "': " ++ reason
        else "cannot open '" ++ path ++ "' for reading: " ++ reason
      complain program what
      return max 1 (← extents program cut withNames isFirst rest)

/-- The first bytes of the input go no further than asked for. -/
def headInput (e : Extent) : Run m Nat := do
  match ← Run.remaining 0 with
  | .ok bytes =>
    let taken := e.head bytes
    Run.advance 0 (if e.inBytes && e.sign.isNone then taken.length else bytes.length)
    put "head" taken
  | .error reason =>
    complain "head" ("error reading 'standard input': " ++ reason)
    return 1

/-- A file of zeros has no end, so that only its first bytes can be taken. -/
def headZeros (e : Extent) : Run m Nat :=
  put "head" (List.replicate (if e.inBytes then e.count else 0) 0)

def head (args : List Text) : Run m Nat := do
  match readExtent args with
  | .error what => refuse "head" what
  | .ok (e, []) => headInput e
  | .ok (e, paths) =>
    if paths == ["/dev/zero".toList] then headZeros e
    else extents "head" e.head (paths.length > 1) true paths

def tail (args : List Text) : Run m Nat := do
  match readExtent args with
  | .error what => refuse "tail" what
  | .ok (e, paths) =>
    extents "tail" e.tail (paths.length > 1) true (if paths.isEmpty then ["-"] else paths)

def isSpaceByte (b : UInt8) : Bool :=
  b == 0x20 || (0x09 ≤ b && b ≤ 0x0d)

def wordCount (bytes : Bytes) : Nat :=
  (bytes.foldl (fun (n, inside) b =>
    if isSpaceByte b then (n, false) else if inside then (n, true) else (n + 1, true))
    ((0 : Nat), false)).1

def counts (a : Arguments) (bytes : Bytes) : List Nat :=
  let all := a.options.isEmpty
  (if all || a.has 'l' then [bytes.count 0x0a] else []) ++
    (if all || a.has 'w' then [wordCount bytes] else []) ++
    (if all || a.has 'c' || a.has 'm' then [bytes.length] else [])

def countLine (width : Nat) (numbers : List Nat) (name : Option Text) : Text :=
  List.intercalate " " (numbers.map fun n => Text.padLeft ' ' width (Text.decimal n)) ++
    (match name with | some name => " ".toList ++ name | none => []) ++ ['\n']

def countFiles (a : Arguments) (width : Nat) : List Text → List Nat → Run m (Nat × List Nat)
  | [], total => return (0, total)
  | path :: rest, total => do
    match ← contents path with
    | .ok bytes =>
      let numbers := counts a bytes
      let _ ← put "wc" (toBytes (countLine width numbers (some path)))
      countFiles a width rest (List.zipWith (· + ·) total numbers)
    | .error reason =>
      complain "wc" (shownName path ++ ": " ++ reason)
      let (_, total) ← countFiles a width rest total
      return (1, total)

def sizeWidth (paths : List Text) : Run m Nat := do
  let sizes ← paths.mapM fun path => do
    match ← (readFile (← Run.resolve path) : m (Except FileFault Bytes)) with
    | .ok bytes => return bytes.length
    | .error _ => return 0
  return (Text.decimal (sizes.foldl (· + ·) 0)).length

def wc (args : List Text) : Run m Nat := do
  let a := Arguments.read { flags := "lwcm" } args
  start "wc" a <| match a.operands with
  | [] => do
    match ← takeInput with
    | .ok bytes =>
      let numbers := counts a bytes
      put "wc" (toBytes (countLine (if numbers.length = 1 then 1 else 7) numbers none))
    | .error reason =>
      complain "wc" ("'standard input': " ++ reason)
      return 1
  | paths => do
    let width ← if paths.length = 1 ∧ (counts a []).length = 1 then pure 1 else sizeWidth paths
    let (status, total) ← countFiles a width paths ((counts a []).map fun _ => 0)
    if paths.length > 1 then
      let _ ← put "wc" (toBytes (countLine width total (some "total")))
    return status

/-- The characters of a set, with ranges, kinds and escapes. -/
def trSet : Nat → Text → Text
  | 0, _ => []
  | _, [] => []
  | fuel + 1, '[' :: ':' :: rest =>
    let name := rest.takeWhile Char.isAlpha
    match rest.drop name.length with
    | ':' :: ']' :: rest =>
      ((List.range 256).map Char.ofNat).filter (isOfKind name) ++ trSet fuel rest
    | _ => '[' :: ':' :: trSet fuel rest
  | fuel + 1, t =>
    let (c, rest) := match t with
      | '\\' :: rest =>
        match escape? rest with
        | some (c, rest) => (c, rest)
        | none => (rest.headD '\\', rest.tail)
      | c :: rest => (c, rest)
      | [] => (' ', [])
    match rest with
    | '-' :: d :: rest =>
      (List.range (d.toNat + 1 - c.toNat)).map (fun n => Char.ofNat (c.toNat + n)) ++
        trSet fuel rest
    | _ => c :: trSet fuel rest

/-- Where a character is in a set. -/
def lastIndex? (t : Text) (c : Char) : Option Nat :=
  (t.reverse.idxOf? c).map fun n => t.length - 1 - n

def squeeze (set : Text) : Text → Text
  | c :: d :: rest =>
    if c == d && set.contains c then squeeze set (d :: rest) else c :: squeeze set (d :: rest)
  | t => t

def tr (args : List Text) : Run m Nat := do
  let a := Arguments.read { flags := "cCds" } args
  let sets := a.operands.map fun t => trSet t.length t
  let complement (t : Text) : Text :=
    if a.has 'c' || a.has 'C' then ((List.range 256).map Char.ofNat).filter (! t.contains ·) else t
  start "tr" a <| match sets with
  | [] => refuse "tr" "missing operand"
  | first :: others => do
    match ← takeInput with
    | .error reason =>
      complain "tr" ("read error: " ++ reason)
      return 1
    | .ok bytes =>
      let source := complement first
      let t := ofBytes bytes
      let mapped (image : Text) : Text := t.map fun c =>
        match lastIndex? source c with
        | some n => (image[n]?).getD (image.getLastD c)
        | none => c
      let result := match a.has 'd', others with
        | true, image :: _ =>
          let kept := t.filter (! source.contains ·)
          if a.has 's' then squeeze image kept else kept
        | true, [] => t.filter (! source.contains ·)
        | false, image :: _ => if a.has 's' then squeeze image (mapped image) else mapped image
        | false, [] => if a.has 's' then squeeze source t else t
      put "tr" (toBytes result)

def tee (args : List Text) : Run m Nat := do
  let a := Arguments.read { flags := "ai" } args
  start "tee" a do
    match ← takeInput with
    | .error reason =>
      complain "tee" ("read error: " ++ reason)
      return 1
    | .ok bytes =>
      let results ← a.operands.mapM fun path => do
        match ← store path bytes (a.has 'a') with
        | .ok () => return 0
        | .error fault =>
          complain "tee" (shownName path ++ ": " ++ fault.reason)
          return 1
      return max (← put "tee" bytes) (results.foldl max 0)

end ShaderBackend.Shell.Utility
