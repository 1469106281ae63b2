import ShaderBackend.Program.Basic

/-!
The text of a token program in its canonical form: one token a line, grouped by kind, immediates and
instructions numbered from zero.
-/

namespace ShaderBackend

/-- The components of a mask; the full mask is not written. -/
def maskText (mask : UInt8) : Text :=
  if mask == 0xf then []
  else '.' ::
    ((if mask &&& 1 != 0 then ['x'] else []) ++ (if mask &&& 2 != 0 then ['y'] else []) ++
      (if mask &&& 4 != 0 then ['z'] else []) ++ (if mask &&& 8 != 0 then ['w'] else []))

def bracketed (n : Nat) : Text :=
  "[" ++ Text.decimal n ++ "]"

namespace Register

def rangeText (r : Register) : Text :=
  if r.first = r.last then bracketed r.first
  else "[" ++ Text.decimal r.first ++ ".." ++ Text.decimal r.last ++ "]"

def render (r : Register) : Text :=
  r.file.name ++ (r.dimension.map bracketed).getD [] ++ r.rangeText ++ maskText r.mask

end Register

/-- Index zero is not written. -/
def Binding.render (b : Binding) : Text :=
  b.name ++ if b.index = 0 then [] else bracketed b.index

def Property.render (p : Property) : Text :=
  "PROPERTY " ++ p.name ++ " " ++ p.value

def Declaration.render (d : Declaration) : Text :=
  "DCL " ++ List.intercalate ", "
    (d.toRegister.render :: d.binding.toList.map Binding.render ++ d.attributes)

def Immediate.render (number : Nat) (i : Immediate) : Text :=
  "IMM" ++ bracketed number ++ " " ++ i.kind ++ " \x7b " ++ List.intercalate ", " i.values ++ "\x7d"

def Instruction.render (number : Nat) (i : Instruction) : Text :=
  Text.padLeft ' ' 3 (Text.decimal number) ++ ": " ++ i.opcode ++
    if i.operands.isEmpty then [] else ' ' :: List.intercalate ", " i.operands

/-- The lines of the canonical form. -/
def Program.lines (p : Program) : List Text :=
  p.stage.processor :: p.properties.map Property.render ++ p.declarations.map Declaration.render ++
    p.immediates.mapIdx Immediate.render ++ p.instructions.mapIdx Instruction.render

def Program.render (p : Program) : Text :=
  Text.unlines p.lines

end ShaderBackend
