import ShaderBackend.Text.Number

/-!
Texts in quotes, so that a shell would read them back. The shell itself quotes everything it shows;
programs quote a name in a message only if a shell would not take it as a plain word.
-/

namespace ShaderBackend.Shell

/-- A text in single quotes, with its own single quotes in double ones. At most `fuel` characters
are left. -/
def quoteWithin : Nat → Text → Text
  | 0, _ => []
  | fuel + 1, t =>
    let plain := t.takeWhile (· != '\'')
    let quotes := (t.drop plain.length).takeWhile (· == '\'')
    let rest := t.drop (plain.length + quotes.length)
    let quoted : Text := if quotes.isEmpty then [] else "\"" ++ quotes ++ "\""
    "'" ++ plain ++ "'" ++ quoted ++ (if rest.isEmpty then [] else quoteWithin fuel rest)

def singleQuoted (t : Text) : Text :=
  quoteWithin (t.length + 1) t

namespace ShownName

/-- The characters that a shell does not take as part of a plain word, or that end a name in a
message. -/
def isSpecial (c : Char) : Bool :=
  " !\"$&'()*:;<=>?[\\^\x60|".toList.contains c

def isPrintable (c : Char) : Bool :=
  ' ' ≤ c && c ≤ '~'

/-- Whether a name is no plain word. -/
def needsQuotes (name : Text) : Bool :=
  name.isEmpty || name.any (fun c => isSpecial c || ! isPrintable c) ||
    name.head? == some '#' || name.head? == some '~' || name == ['\x7b'] || name == ['\x7d']

def isCommon (c : Char) : Bool :=
  c.isAlphanum || " '%+,-./:]_@".toList.contains c

def allCommon : Text → Bool
  | [] => true
  | c :: rest => (isCommon c || c == '#' || c == '~') && rest.all isCommon

def escapeLetter? : Char → Option Char
  | '\x07' => some 'a'
  | '\x08' => some 'b'
  | '\x0c' => some 'f'
  | '\n' => some 'n'
  | '\r' => some 'r'
  | '\t' => some 't'
  | '\x0b' => some 'v'
  | _ => none

def escape (c : Char) : Text :=
  '\\' :: match escapeLetter? c with
    | some letter => [letter]
    | none => Text.padLeft '0' 3 (Nat.toDigits 8 c.toNat)

/-- The rest of a name in single quotes, inside or outside of the quotes for escapes. -/
def quoteRest : Bool → Text → Text
  | _, [] => ['\'']
  | inEscapes, c :: rest =>
    if c == '\'' then "'\\''" ++ quoteRest false rest
    else if isPrintable c then (if inEscapes then "''".toList else []) ++ c :: quoteRest false rest
    else (if inEscapes then [] else "'$'".toList) ++ escape c ++ quoteRest true rest

end ShownName

def shownName (name : Text) : Text :=
  if ! ShownName.needsQuotes name then name
  else if name.contains '\'' && ShownName.allCommon name then "\"" ++ name ++ "\""
  else '\'' :: ShownName.quoteRest false name

end ShaderBackend.Shell
