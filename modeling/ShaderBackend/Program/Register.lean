import ShaderBackend.Program.Fault

/-!
Reading a register: the name of a file, one or two bracketed groups, and an optional write mask. The
first of two groups is the dimension, the last group is a number or a range.
-/

namespace ShaderBackend

namespace Excerpt

/-- A number, with blanks around it. -/
def readNumber (e : Excerpt) : Reading Nat :=
  match Text.readNumber? 10 (Text.trim e.text) with
  | some n => .ok n
  | none => e.fail (.numberExpected (Text.trim e.text))

/-- The position of a component. -/
def componentBit? : Char → Option Nat
  | 'x' => some 0
  | 'y' => some 1
  | 'z' => some 2
  | 'w' => some 3
  | _ => none

/-- The bits of the components, which have to come in increasing order from `least` on. The first
character that does not fit decides the fault. -/
def readComponents (whole : Excerpt) (least : Nat) : Text → Reading UInt8
  | [] => .ok 0
  | c :: rest =>
    match componentBit? c with
    | none => whole.fail (.invalidMask whole.text)
    | some bit =>
      if bit < least then whole.fail (.unorderedMask whole.text)
      else do
        let mask ← readComponents whole (bit + 1) rest
        return mask ||| (1 <<< UInt8.ofNat bit)

/-- The components after the dot of a write mask. -/
def readMask (e : Excerpt) : Reading UInt8 := do
  let mask ← readComponents e 0 e.text
  if mask = 0 then e.fail .emptyMask else return mask

/-- The contents of the bracketed groups at the start, and what follows them. At most `fuel` groups
are read; no text has more groups than characters. -/
def readGroups : Nat → Excerpt → Reading (List Excerpt × Excerpt)
  | 0, e => .ok ([], e)
  | fuel + 1, e =>
    if e.text.head? = some '[' then
      let inner := e.tail.before ']'
      let close := e.tail.startingAt ']'
      if close.isEmpty then e.fail .unterminatedBracket
      else do
        let (groups, rest) ← readGroups fuel close.tail
        return (inner :: groups, rest)
    else .ok ([], e)

/-- A number, or two numbers with dots between them. -/
def readRange (e : Excerpt) : Reading (Nat × Nat) := do
  match e.cutAt? ".." with
  | some (left, right) =>
    let first ← left.readNumber
    let last ← right.readNumber
    return (first, last)
  | none =>
    let n ← e.readNumber
    return (n, n)

/-- The dimension, if there are two groups, and the range. -/
def splitGroups (whole : Excerpt) : List Excerpt → Reading (Option Nat × Excerpt)
  | [range] => .ok (none, range)
  | [dimension, range] => do
    let n ← dimension.readNumber
    return (some n, range)
  | _ => whole.fail (.malformedRegister whole.text)

/-- The mask after the groups, all components if there is none. -/
def readSuffix (e : Excerpt) : Reading UInt8 :=
  match e.text with
  | [] => .ok 0xf
  | '.' :: _ => e.tail.readMask
  | tail => e.fail (.unexpectedTail tail)

def readRegister (e : Excerpt) : Reading Register := do
  let name := e.before '['
  let groups := e.startingAt '['
  if groups.isEmpty then e.fail (.bracketExpected e.text)
  else match RegisterFile.ofName? name.text with
  | none => name.fail (.unknownFile name.text)
  | some file =>
    let (groups, suffix) ← groups.readGroups groups.text.length
    let (dimension, range) ← e.splitGroups groups
    let (first, last) ← range.readRange
    if last < first then range.fail (.emptyRange first last)
    else
      let mask ← suffix.readSuffix
      return { file, dimension, first, last, mask }

end Excerpt

end ShaderBackend
