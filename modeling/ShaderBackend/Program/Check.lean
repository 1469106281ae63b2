import ShaderBackend.Program.Parser
import ShaderBackend.Varying.Assignment

/-!
The front-end: a program is read and then checked for the stage it is wanted for. The check finds
declarations whose varyings would have no slots, so that a program that passes can always be given
its slots.
-/

namespace ShaderBackend

namespace Declaration

/-- Why the varyings of a declaration have no place. Only the last index of the range counts. -/
def unplaceable? (stage : Stage) (d : Declaration) (semantic : Semantic) (index : Nat) :
    Option Text :=
  let last := index + (d.count - 1)
  if maxNumber < last then
    some (semantic.label ++ bracket index ++ " runs past the last index")
  else if stage = .vertex ∧ d.file = .input then none
  else if stage = .fragment ∧ d.file = .output then
    if semantic = .color ∧ maxColorOutputs ≤ last then
      some ("COLOR" ++ bracket last ++ " is past the last of " ++ Text.decimal maxColorOutputs ++
        " render targets")
    else none
  else if d.file = .input then
    match semantic.inputAddress last with
    | .ok _ => none
    | .error reason => some (reason.message ++ " in a " ++ stage.mnemonic ++ " program")
  else
    match semantic.outputAddress last with
    | .ok _ => none
    | .error reason => some (reason.message ++ " in a " ++ stage.mnemonic ++ " program")
where
  bracket (n : Nat) : Text := "[" ++ Text.decimal n ++ "]"

/-- What is wrong with the semantic of a varying. -/
def placementProblem? (stage : Stage) (d : Declaration) : Option Text :=
  if d.file.isVarying then
    match d.binding with
    | some (.other name _) =>
      some ("semantic '" ++ name ++ "' cannot be used on an " ++ d.file.name ++ " declaration")
    | some (.role semantic index) => d.unplaceable? stage semantic index
    | none => none
  else none

/-- What is wrong with a declaration in a program for a stage. -/
def problems (stage : Stage) (d : Declaration) : List Text :=
  (d.placementProblem? stage).toList ++
    if stage = .compute ∧ d.file.isVarying then
      ["compute programs have no inputs or outputs".toList]
    else []

end Declaration

namespace Program

/-- A program is checked for a stage that its header does not name. The span is that of the header
in a source that starts with it. -/
def stageMismatch (p : Program) (stage : Stage) : Diagnostic :=
  (Diagnostic.error
    ("program is a " ++ p.stage.processor ++ " shader but stage '" ++ stage.mnemonic ++
      "' was requested") ⟨0, p.stage.processor.utf8Length⟩).withHelp
    ("pass --stage " ++ p.stage.mnemonic ++ " or change the header to " ++ stage.processor)

def noInstructions : Diagnostic :=
  (Diagnostic.bare "program has no instructions").withHelp "every program ends with END"

def declarationErrors (p : Program) (stage : Stage) : List Diagnostic :=
  p.declarations.flatMap fun d => (d.problems stage).map (Diagnostic.error · d.span)

/-- Everything that keeps the program from being compiled for a stage. -/
def errors (p : Program) (stage : Stage) : List Diagnostic :=
  (if p.stage = stage then [] else [p.stageMismatch stage]) ++ p.declarationErrors stage ++
    if p.instructions.isEmpty then [noInstructions] else []

/-- Read a program and check it for a stage. -/
def ofSource (source : Text) (stage : Stage) : Except (List Diagnostic) Program :=
  match parse source with
  | .error diagnostics => .error diagnostics
  | .ok p =>
    match p.errors stage with
    | [] => .ok p
    | errors => .error errors

end Program

/-- A front-end counts the programs it has accepted. -/
structure FrontEnd where
  accepted : Nat := 0
  deriving DecidableEq, Repr

namespace FrontEnd

def name : Text := "tgsi"

def compile (f : FrontEnd) (source : Text) (stage : Stage) :
    Except (List Diagnostic) Program × FrontEnd :=
  match Program.ofSource source stage with
  | .ok p => (.ok p, { f with accepted := f.accepted + 1 })
  | .error errors => (.error errors, f)

end FrontEnd

end ShaderBackend
