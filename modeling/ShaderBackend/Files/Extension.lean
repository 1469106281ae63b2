import ShaderBackend.Text.Basic

/-!
File names with another extension. The extension of a name is what follows its last dot, unless that
dot is the first character of the name; the name of the directory above has none.
-/

namespace ShaderBackend.FileName

def lastName (path : Text) : Text :=
  (path.reverse.takeWhile (· != '/')).reverse

def extension? (name : Text) : Option Text :=
  if name = ".." then none
  else
    match name.reverse.dropWhile (· != '.') with
    | [] | [_] => none
    | _ => some (name.reverse.takeWhile (· != '.')).reverse

/-- A path without its extension, up to and with the dot in front of it. -/
def withoutExtension (path : Text) : Text :=
  match extension? (lastName path) with
  | some e => path.take (path.length - e.length)
  | none => path

/-- Put an extension at the end of a path that may end in a dot. What ends in no name stays as it
is. -/
def addExtension (path extension : Text) : Text :=
  let name := lastName path
  if name = [] ∨ name = "." ∨ name = ".." then path
  else if (extension? name).isSome then path ++ extension
  else path ++ "." ++ extension

def withExtension (path extension : Text) : Text :=
  addExtension (withoutExtension path) extension

end ShaderBackend.FileName
