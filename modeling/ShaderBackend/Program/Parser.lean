import ShaderBackend.Program.Register
import ShaderBackend.Text.TopLevel

/-!
Reading a token program. A semicolon starts a comment; lines that are blank without it are skipped.
The first line names the processor, and every other line is one token by itself. Only the structure
is checked here.
-/

namespace ShaderBackend

/-- One line of a program after its header. -/
inductive Token where
  | property (p : Property)
  | declaration (d : Declaration)
  | immediate (i : Immediate)
  | instruction (i : Instruction)
  deriving DecidableEq, Repr

/-- The types of the values of an immediate. -/
def immediateKinds : List Text :=
  ["FLT32", "UINT32", "INT32", "FLT64", "UINT64", "INT64"]

/-- The words that qualify a declaration, and are no semantics. -/
def declarationAttributes : List Text :=
  ["CONSTANT", "LINEAR", "PERSPECTIVE", "CENTROID", "SAMPLE", "INVARIANT", "LOCAL"]

def isDeclarationAttribute (t : Text) : Bool :=
  declarationAttributes.contains t || List.isPrefixOf "ARRAY(".toList t

def isUpperOrUnderscore (c : Char) : Bool :=
  c.isUpper || c == '_'

/-- A nonempty word of upper-case letters and underscores. -/
def isSemanticName (t : Text) : Bool :=
  ! t.isEmpty && t.all isUpperOrUnderscore

/-- A nonempty word of upper-case letters, digits and underscores. -/
def isOpcode (t : Text) : Bool :=
  ! t.isEmpty && t.all fun c => isUpperOrUnderscore c || c.isDigit

/-- A nonempty run of digits. -/
def isLabel (t : Text) : Bool :=
  ! t.isEmpty && t.all Char.isDigit

def Binding.ofName (name : Text) (index : Nat) : Binding :=
  match Semantic.ofName? name with
  | some semantic => .role semantic index
  | none => .other name index

namespace Excerpt

/-- The bracketed index of a semantic, zero if there is none. -/
def readSemanticIndex (whole bracket : Excerpt) : Reading Nat :=
  if bracket.isEmpty then .ok 0
  else
    let inner := bracket.tail
    if inner.text.getLast? = some ']' then do
      let digits := inner.dropLast
      let index ← digits.readNumber
      if maxSemanticIndex < index then digits.fail (.semanticIndexPastLast index)
      else return index
    else whole.fail (.malformedSemantic whole.text)

def readSemantic (e : Excerpt) : Reading Binding := do
  let name := e.before '['
  let index ← e.readSemanticIndex (e.startingAt '[')
  if isSemanticName name.text then return .ofName name.text index
  else e.fail (.malformedSemantic e.text)

/-- The semantic in front of the attributes of a declaration, if there is one. -/
def readBinding (file : RegisterFile) : List Excerpt →
    Reading (Option Binding × List Excerpt)
  | [] => .ok (none, [])
  | item :: rest =>
    if file.hasSemantic && ! isDeclarationAttribute item.text then do
      let binding ← item.readSemantic
      return (some binding, rest)
    else .ok (none, item :: rest)

def readProperty (line rest : Excerpt) : Reading Property :=
  match Text.words rest.text with
  | [name, value] => .ok { name, value, span := line.span }
  | _ => line.fail .propertyShape

def readDeclaration (line rest : Excerpt) : Reading Declaration :=
  match rest.splitTopLevel with
  | [] => line.fail .registerExpected
  | item :: items =>
    if item.isEmpty then line.fail .registerExpected
    else do
      let register ← item.readRegister
      if register.file.isVarying && maxVaryingRegisters ≤ register.last then
        item.fail (.registerPastLast register.file register.last)
      else
        let (binding, attributes) ← readBinding register.file items
        return {
          toRegister := register
          binding
          attributes := attributes.map (·.text)
          span := line.span }

/-- What stands between the braces of an immediate. -/
def bracedText? (t : Text) : Option Text :=
  match Text.trim t with
  | '\x7b' :: inner =>
    let inner := Text.trimEnd inner
    if inner.getLast? = some '\x7d' then some inner.dropLast else none
  | _ => none

/-- The nonempty values between commas. -/
def immediateValues (t : Text) : List Text :=
  ((List.splitOn ',' t).map Text.trim).filter (! ·.isEmpty)

def readImmediate (line rest : Excerpt) : Reading Immediate :=
  let (kind, body) := rest.splitWord
  if immediateKinds.contains kind.text then
    match bracedText? body.text with
    | none => line.fail .bracesExpected
    | some inner =>
      let values := immediateValues inner
      if values.isEmpty || 4 < values.length then line.fail (.immediateSize values.length)
      else .ok { kind := kind.text, values, span := line.span }
  else kind.fail (.unknownImmediateType kind.text)

/-- What follows the label of an instruction, if it has one. -/
def dropLabel (line : Excerpt) : Reading Excerpt :=
  let (word, rest) := line.splitWord
  if word.text.getLast? = some ':' then
    if isLabel word.text.dropLast then .ok rest else word.fail (.invalidLabel word.text)
  else .ok line

def readInstruction (line : Excerpt) : Reading Instruction := do
  let body ← line.dropLabel
  let (opcode, operands) := body.splitWord
  if isOpcode opcode.text then
    return {
      opcode := opcode.text
      operands :=
        if (Text.trim operands.text).isEmpty then [] else Text.splitTopLevel operands.text
      span := line.span }
  else line.fail (.instructionExpected line.text)

/-- One line of a program, by its first word. -/
def readToken (line : Excerpt) : Reading Token :=
  let (word, rest) := line.splitWord
  if word.text = "PROPERTY" then (line.readProperty rest).map .property
  else if word.text = "DCL" then (line.readDeclaration rest).map .declaration
  else if List.isPrefixOf "IMM[".toList word.text then (line.readImmediate rest).map .immediate
  else line.readInstruction.map .instruction

/-- A line without its comment and the blanks around it. -/
def significant (line : Excerpt) : Excerpt :=
  (line.before ';').trim

/-- The lines of a source that say something. -/
def significantLines (source : Text) : List Excerpt :=
  ((lines source).map significant).filter (! ·.isEmpty)

end Excerpt

namespace Program

def push (p : Program) : Token → Program
  | .property x => { p with properties := p.properties ++ [x] }
  | .declaration d => { p with declarations := p.declarations ++ [d] }
  | .immediate i => { p with immediates := p.immediates ++ [i] }
  | .instruction i => { p with instructions := p.instructions ++ [i] }

/-- Read one more line, into a program and the problems of the lines before it. -/
def readInto (state : Program × List Problem) (line : Excerpt) : Program × List Problem :=
  let reading := line.readToken
  (match reading.value with
    | some token => state.1.push token
    | none => state.1,
    state.2 ++ reading.problems)

def emptySource : Diagnostic :=
  (Diagnostic.bare "empty program: missing processor header").withHelp
    ("start with one of " ++ List.intercalate ", " (Stage.all.map Stage.processor))

/-- Read a program; every line that cannot be read is reported. -/
def parse (source : Text) : Except (List Diagnostic) Program :=
  match Excerpt.significantLines source with
  | [] => .error [emptySource]
  | header :: body =>
    match Stage.ofProcessor? header.text with
    | none => .error [.error (Fault.headerExpected header.text).message header.span]
    | some stage =>
      let state := body.foldl readInto ({ stage }, [])
      if state.2.isEmpty then .ok state.1 else .error (state.2.map Problem.diagnostic)

end Program

end ShaderBackend
