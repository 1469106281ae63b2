import ShaderBackend.Shell.Arithmetic
import ShaderBackend.Shell.Pattern
import ShaderBackend.Shell.State

/-!
What words stand for. The parts of a word are replaced by pieces that remember what was quoted; then
the pieces are cut into fields at separators, and fields that are patterns become the names of files
that match them.
-/

namespace ShaderBackend.Shell

inductive Piece where
  | char (c : Char) (quoted splits : Bool)
  /-- There is a field here even if it is empty. -/
  | present
  /-- The end of an argument that another one follows. -/
  | boundary
  /-- A stretch starts here in which separators are looked for, or only the ends of arguments. -/
  | stretch (onlyArguments : Bool)
  deriving DecidableEq, Repr

namespace Piece

def text (pieces : List Piece) : Text :=
  pieces.flatMap fun
    | char c _ _ => [c]
    | present | boundary | stretch _ => []

def marked (pieces : List Piece) : Marked :=
  pieces.flatMap fun
    | char c quoted _ => [(c, quoted)]
    | present | boundary | stretch _ => []

/-- The pieces of a value, in which a NUL is the end of an argument. -/
def ofChars (quoted : Bool) (t : Text) : List Piece :=
  t.map fun c => if c == '\x00' then boundary else char c quoted (! quoted)

/-- The pieces of a value. It is a stretch of its own if it is not quoted. -/
def ofValue (quoted : Bool) (t : Text) : List Piece :=
  (if quoted then [] else [stretch false]) ++ ofChars quoted t

end Piece

/-- Fields that are complete and the one that is growing, the last of each first. -/
structure Splitting where
  complete : List Marked := []
  current : Option Marked := none
  /-- Only the ends of arguments separate fields in this stretch. -/
  onlyArguments : Bool := false
  /-- They did so in the stretch before. -/
  isAfterArguments : Bool := false
  /-- A blank ended the last field. -/
  isAfterBlank : Bool := false

namespace Splitting

def isBlank (c : Char) : Bool :=
  c == ' ' || c == '\t' || c == '\n'

/-- End the current field, which may be empty. -/
def finish (s : Splitting) : Splitting :=
  { s with complete := (s.current.getD []).reverse :: s.complete, current := none }

/-- A separator. Blanks next to another one belong to it, and blanks in front of a field are left
out, but each counts in a stretch after arguments. -/
def separate (s : Splitting) (isBlank : Bool) : Splitting :=
  if s.isAfterBlank then { s with isAfterBlank := isBlank }
  else
    let isAfterBlank := isBlank && ! s.isAfterArguments && ! s.onlyArguments
    if isAfterBlank && s.current.isNone then s else { s.finish with isAfterBlank }

def step (separators : Text) (s : Splitting) : Piece → Splitting
  | .present => { s with current := some (s.current.getD []) }
  | .boundary => s.separate true
  | .stretch onlyArguments =>
    { s with onlyArguments, isAfterArguments := s.onlyArguments, isAfterBlank := false }
  | .char c quoted splits =>
    if splits && separators.contains c then s.separate (isBlank c)
    else { s with current := some ((c, quoted) :: s.current.getD []), isAfterBlank := false }

/-- All fields. The last argument is one even if it is empty. -/
def fields (s : Splitting) : List Marked :=
  let s := if s.onlyArguments || s.current.isSome then s.finish else s
  s.complete.reverse

end Splitting

def splitFields (separators : Text) (pieces : List Piece) : List Marked :=
  (pieces.foldl (Splitting.step separators) {}).fields

def Parameter.name : Parameter → Text
  | positional n => Text.decimal n
  | count => "#"
  | each => "@"
  | all => "*"
  | processId => "$"
  | status => "?"
  | lastProcess => "!"
  | options => "-"
  | named name => name

section

variable {m : Type → Type} [Monad m]

def separators : Run m Text := do
  return (← Run.value? "IFS").getD " \t\n"

/-- What stands between arguments that are one value. Where they are to be fields, that is the end
of an argument. -/
def argumentSeparator (asFields quoted : Bool) (p : Parameter) : Run m Text := do
  match asFields, quoted, p, ← Run.value? "IFS" with
  | true, true, .each, _ => return ['\x00']
  | _, _, _, none => return [' ']
  | true, false, _, some _ => return ['\x00']
  | _, _, _, some separators => return separators.take 1

def parameterValue (asFields quoted : Bool) (p : Parameter) : Run m (Option Text) := do
  let s ← get
  match p with
  | .positional 0 => return some s.name
  | .positional n => return s.args[n - 1]?
  | .count => return some (Text.decimal s.args.length)
  | .each | .all => return some (List.intercalate (← argumentSeparator asFields quoted p) s.args)
  | .processId => return some (Text.decimal s.process)
  | .status => return some (Text.decimal s.status)
  | .lastProcess => return s.lastProcess.map Text.decimal
  | .options => return some s.options.letters
  | .named name => Run.value? name

/-- The pieces of what a parameter comes to. Quoted arguments are a stretch too. -/
def valuePieces (p : Parameter) (quoted : Bool) (value : Text) : Run m (List Piece) := do
  if quoted && p == .each && ! (← get).args.isEmpty then
    return .stretch true :: Piece.ofChars true value
  else return Piece.ofValue quoted value

variable [FileSystem m]

def refuseUnset {α : Type} (p : Parameter) : Run m α :=
  Run.fail (p.name ++ ": parameter not set")

def evaluateArithmetic (expression : Text) : Run m Text := do
  let s ← get
  let lookup (name : Text) : Option Text := (s.bindings.lookup name).bind (·.value)
  match Arithmetic.evaluate lookup expression with
  | .ok (n, changes) =>
    changes.reverse.forM fun (name, value) => Run.assign name value
    return Text.signedDecimal n
  | .error fault => Run.fail (fault.message expression)

def userDirectories : List (Text × Text) :=
  ([("root", "/root"), ("daemon", "/usr/sbin"), ("bin", "/bin"), ("sys", "/dev"), ("sync", "/bin"),
    ("games", "/usr/games"), ("man", "/var/cache/man"), ("lp", "/var/spool/lpd"),
    ("mail", "/var/mail"), ("news", "/var/spool/news"), ("uucp", "/var/spool/uucp"),
    ("proxy", "/bin"), ("www-data", "/var/www"), ("backup", "/var/backups"), ("list", "/var/list"),
    ("irc", "/run/ircd"), ("_apt", "/nonexistent"), ("nobody", "/nonexistent")] :
    List (String × String)).map fun (user, path) => (user.toList, path.toList)

/-- The parts of a text that starts with a tilde, which stands for the directory of the user named
after it, or of this one. The name ends at a slash, or where the word ends. -/
def expandTilde (t : Text) (endsWord : Bool) : Run m (List Part) := do
  let name := (t.drop 1).takeWhile (· != '/')
  let rest := t.drop (name.length + 1)
  let directory ← if rest.isEmpty && ! endsWord then pure none
    else if name.isEmpty then Run.value? "HOME"
    else pure (userDirectories.lookup name)
  match directory with
  | some [] => return [.text rest false]
  | some path => return [.text path true, .text rest false]
  | none => return [.text t false]

/-- A word in which a tilde in front is replaced. -/
def withDirectory : Word → Run m Word
  | .text ('~' :: t) false :: rest => do return (← expandTilde ('~' :: t) rest.isEmpty) ++ rest
  | w => return w

/-- A value in which tildes in front and after colons are replaced. -/
def withDirectories (atStart : Bool) : Word → Run m Word
  | [] => return []
  | .text t false :: rest => do
    let segments := List.splitOn ':' t
    let last := segments.length - 1
    let expanded ← segments.mapIdxM fun i segment => do
      let colon : List Part := if i = 0 then [] else [.text [':'] false]
      match segment, i != 0 || atStart with
      | '~' :: _, true => return colon ++ (← expandTilde segment (i != last || rest.isEmpty))
      | _, _ => return colon ++ [.text segment false]
    return expanded.flatten ++ (← withDirectories false rest)
  | p :: rest => do return p :: (← withDirectories false rest)

/-- Where words are expanded. -/
inductive Place where
  /-- The word is one text. -/
  | whole
  /-- The word is cut into fields. -/
  | fields
  /-- The word is cut into fields also where it is written out. -/
  | splitFields
  deriving DecidableEq, Repr

/-- The place of a word inside one that is not quoted. -/
def Place.inside (quoted : Bool) : Place → Place
  | whole => whole
  | _ => if quoted then fields else splitFields

/-- Parts in which texts that are next to each other and not quoted are one. -/
def joinTexts : List Part → List Part
  | [] => []
  | .text t false :: rest =>
    match joinTexts rest with
    | .text u false :: rest => .text (t ++ u) false :: rest
    | rest => if t.isEmpty then rest else .text t false :: rest
  | p :: rest => p :: joinTexts rest

def expandParts (capture : Command → Run m Text) : Nat → Place → List Part → Run m (List Piece)
  | 0, _, _ => return []
  | fuel + 1, place, parts => do
    let asFields := place != .whole
    let parameter (p : Parameter) (use : Use) (quoted : Bool) : Run m (List Piece) := do
      let value ← parameterValue asFields quoted p
      let plain : Run m (List Piece) := do
        match value with
        | some v => valuePieces p quoted v
        | none =>
          if (← get).has .noUnset then refuseUnset p else return []
      match use with
      | .invalid => Run.fail "Bad substitution"
      | .value => plain
      | .length =>
        match value with
        | some v => valuePieces p quoted (Text.decimal v.length)
        | none =>
          if (← get).has .noUnset then refuseUnset p else valuePieces p quoted "0"
      | .trim atEnd longest pattern =>
        match value with
        | none => plain
        | some v =>
          let pieces ← expandParts capture fuel .whole (← withDirectory pattern)
          let pattern := Pattern.ofMarked (Piece.marked pieces)
          valuePieces p quoted (pattern.trim atEnd longest v)
      | .fallback f orEmpty word =>
        let lacks := value.isNone || (orEmpty && value == some [])
        let word ← if quoted then pure word else withDirectory word
        match f, lacks with
        | .substitute, true => expandParts capture fuel (place.inside quoted) word
        | .invert, true => valuePieces p quoted []
        | .invert, false => expandParts capture fuel (place.inside quoted) word
        | .assign, true =>
          let t := Piece.text (← expandParts capture fuel .whole word)
          match p with
          | .named name => Run.assign name t
          | p => Run.fail (p.name ++ ": bad variable name")
          return Piece.ofValue quoted t
        | .complain, true =>
          let t := Piece.text (← expandParts capture fuel .whole word)
          let reason : Text :=
            if ! t.isEmpty then t
            else if orEmpty then "parameter not set or null"
            else "parameter not set"
          Run.fail (p.name ++ ": " ++ reason)
        | _, false =>
          match value with
          | some v => valuePieces p quoted v
          | none => return []
    let part : Part → Run m (List Piece)
      | .text t quoted =>
        return if t.isEmpty && quoted then [.present]
          else if place == .splitFields && ! quoted then Piece.ofValue false t
          else t.map fun c => .char c quoted false
      | .parameter p use quoted => parameter p use quoted
      | .output body quoted => do return Piece.ofValue quoted (← capture body)
      | .arithmetic expression quoted => do
        let t := Piece.text (← expandParts capture fuel .whole expression)
        return Piece.ofValue quoted (← evaluateArithmetic t)
    return (← (joinTexts parts).mapM part).flatten

def wordDepth : Nat := 200

def expandDocument (capture : Command → Run m Text) (w : Word) : Run m Text := do
  return Piece.text (← expandParts capture wordDepth .whole w)

def expandWhole (capture : Command → Run m Text) (w : Word) : Run m Text := do
  expandDocument capture (← withDirectory w)

def expandValue (capture : Command → Run m Text) (w : Word) : Run m Text := do
  expandDocument capture (← withDirectories true w)

def expandPattern (capture : Command → Run m Text) (w : Word) : Run m Pattern := do
  let pieces ← expandParts capture wordDepth .whole (← withDirectory w)
  return Pattern.ofMarked (Piece.marked pieces)

/-- What is known of a file, or of what a descriptor leads to if the path stands for one. -/
def statusOf (path : Text) : Run m (Except FileFault FileStatus) := do
  match streamOfPath? path with
  | none => (fileStatus (← Run.resolve path) : m (Except FileFault FileStatus))
  | some descriptor =>
    match ← Run.handle? descriptor with
    | some (_, .source _) | some (_, .sink _) => return .ok { kind := .pipe }
    | some (_, .file path _ _) | some (_, .device path _) =>
      (fileStatus path : m (Except FileFault FileStatus))
    | some (_, .directory) => return .ok { kind := .directory }
    | none => return .error .missing

def isPresent (path : Text) : Run m Bool := do
  return (← statusOf path).isOk

/-- The names in a directory that match. A dot in front is matched by a dot only. -/
def matchingNames (directory : Text) (p : Pattern) : Run m (List Text) := do
  let path ← Run.resolve (if directory.isEmpty then "." else directory)
  match ← (listDirectory path : m (Except FileFault (List Text))) with
  | .error _ => return []
  | .ok names =>
    let all : List Text := [".".toList, "..".toList] ++ names.map fun n => ofBytes (Text.toUtf8 n)
    let showsHidden := p.head? == some (.char '.')
    return all.filter fun n => p.isMatch n && (showsHidden || n.head? != some '.')

/-- The paths that match names one after the other, each below the one before. -/
def matchingPaths : List Text → List Marked → Run m (List Text)
  | bases, [] => return bases
  | bases, name :: rest => do
    let slash : Text := if rest.isEmpty then [] else "/"
    let p := Pattern.ofMarked name
    let next ← if p.isSpecial then do
        let found ← bases.mapM fun base => do
          return (← matchingNames base p).map fun n => base ++ n ++ slash
        pure found.flatten
      else do
        let paths := bases.map fun base => base ++ name.text ++ slash
        paths.filterM fun path => isPresent path
    matchingPaths next rest

def pathNames : Marked → List Marked
  | [] => [[]]
  | (c, q) :: rest =>
    if c == '/' then [] :: pathNames rest
    else
      match pathNames rest with
      | name :: names => ((c, q) :: name) :: names
      | [] => [[(c, q)]]

/-- A field, or the files that it is a pattern of. -/
def expandPaths (field : Marked) : Run m (List Text) := do
  if (← get).has .noPatterns || ! (Pattern.ofMarked field).isSpecial then return [field.text]
  else
    let found ← matchingPaths [[]] (pathNames field)
    if found.isEmpty then return [field.text]
    else return found.mergeSort fun a b => ! decide (b < a)

def expandWords (capture : Command → Run m Text) (words : List Word) : Run m (List Text) := do
  let fields ← words.mapM fun w => do
    let pieces ← expandParts capture wordDepth .fields (← withDirectory w)
    let fields := splitFields (← separators) pieces
    return (← fields.mapM expandPaths).flatten
  return fields.flatten

end

end ShaderBackend.Shell
