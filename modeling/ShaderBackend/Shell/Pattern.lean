import ShaderBackend.Text.Basic

/-!
Patterns of file names and words: a star stands for any text, a question mark for any character, and
brackets for one of some characters. A quoted character stands for itself.
-/

namespace ShaderBackend.Shell

/-- Characters, each with whether it is quoted. -/
abbrev Marked := List (Char × Bool)

namespace Marked

def text (t : Marked) : Text :=
  t.map (·.1)

def quoted (t : Text) : Marked :=
  t.map (·, true)

end Marked

inductive SetMember where
  | range (low high : Char)
  | kind (name : Text)
  deriving DecidableEq, Repr

def isOfKind (name : Text) (c : Char) : Bool :=
  if name = "alpha" then c.isAlpha
  else if name = "digit" then c.isDigit
  else if name = "alnum" then c.isAlphanum
  else if name = "upper" then c.isUpper
  else if name = "lower" then c.isLower
  else if name = "space" then c == ' ' || ('\t' ≤ c && c ≤ '\r')
  else if name = "blank" then c == ' ' || c == '\t'
  else if name = "xdigit" then c.isDigit || ('a' ≤ c && c ≤ 'f') || ('A' ≤ c && c ≤ 'F')
  else if name = "punct" then '!' ≤ c && c ≤ '~' && ! c.isAlphanum
  else if name = "print" then ' ' ≤ c && c ≤ '~'
  else if name = "graph" then '!' ≤ c && c ≤ '~'
  else if name = "cntrl" then c < ' ' || c == '\x7f'
  else false

def SetMember.matches (c : Char) : SetMember → Bool
  | range low high => low ≤ c && c ≤ high
  | kind name => isOfKind name c

inductive PatternItem where
  | char (c : Char)
  | anyChar
  | anyText
  | set (negated : Bool) (members : List SetMember)
  deriving DecidableEq, Repr

abbrev Pattern := List PatternItem

namespace Pattern

/-- The name of a kind of characters after its opening, and what follows it. -/
def kind? (t : Marked) : Option (Text × Marked) :=
  let name := (t.takeWhile fun c => c.1.isAlpha).map (·.1)
  match t.drop name.length with
  | (':', _) :: (']', _) :: rest => some (name, rest)
  | _ => none

/-- The members of a set up to the bracket that closes it, and what follows it. -/
def members? : Nat → Bool → Marked → Option (List SetMember × Marked)
  | 0, _, _ => none
  | _, _, [] => none
  | fuel + 1, isFirst, (c, q) :: rest =>
    if c == ']' && ! q && ! isFirst then some ([], rest)
    else
      let kind := match q, c, rest with
        | false, '[', (':', false) :: rest => kind? rest
        | _, _, _ => none
      match kind with
      | some (name, rest) =>
        (members? fuel false rest).map fun (ms, rest) => (.kind name :: ms, rest)
      | none =>
        match rest with
        | ('-', false) :: (d, dq) :: more =>
          if d == ']' && ! dq then
            (members? fuel false rest).map fun (ms, rest) => (.range c c :: ms, rest)
          else (members? fuel false more).map fun (ms, rest) => (.range c d :: ms, rest)
        | _ => (members? fuel false rest).map fun (ms, rest) => (.range c c :: ms, rest)

def set? (t : Marked) : Option (PatternItem × Marked) :=
  let (negated, t) := match t with
    | ('!', false) :: rest => (true, rest)
    | _ => (false, t)
  (members? (t.length + 1) true t).map fun (ms, rest) => (.set negated ms, rest)

def ofMarkedWithin : Nat → Marked → Pattern
  | 0, _ => []
  | _, [] => []
  | fuel + 1, (c, true) :: rest => .char c :: ofMarkedWithin fuel rest
  | fuel + 1, (c, false) :: rest =>
    if c == '*' then .anyText :: ofMarkedWithin fuel rest
    else if c == '?' then .anyChar :: ofMarkedWithin fuel rest
    else if c == '[' then
      match set? rest with
      | some (item, rest) => item :: ofMarkedWithin fuel rest
      | none => .char c :: ofMarkedWithin fuel rest
    else if c == '\\' then
      match rest with
      | (d, _) :: rest => .char d :: ofMarkedWithin fuel rest
      | [] => [.char c]
    else .char c :: ofMarkedWithin fuel rest

def ofMarked (t : Marked) : Pattern :=
  ofMarkedWithin t.length t

def isSpecial (p : Pattern) : Bool :=
  p.any fun
    | .char _ => false
    | _ => true

/-- All that a text ends with, from the text itself down to nothing. -/
def suffixes : Text → List Text
  | [] => [[]]
  | c :: rest => (c :: rest) :: suffixes rest

def isMatch : Pattern → Text → Bool
  | [], t => t.isEmpty
  | .anyText :: p, t => (suffixes t).any (isMatch p)
  | .char c :: p, d :: t => c == d && isMatch p t
  | .anyChar :: p, _ :: t => isMatch p t
  | .set negated ms :: p, d :: t => (ms.any (·.matches d) != negated) && isMatch p t
  | _, [] => false

/-- A text without the shortest or longest part at one end that matches. A NUL ends what a part is
compared by, and places looked at from the start on. -/
def trim (p : Pattern) (atEnd longest : Bool) (t : Text) : Text :=
  let upToNul (t : Text) : Text := t.takeWhile (· != '\x00')
  let fits (place : Nat) : Bool :=
    p.isMatch (upToNul (if atEnd then t.drop place else t.take place))
  let places := if atEnd == longest then List.range ((upToNul t).length + 1)
    else (List.range (t.length + 1)).reverse
  match places.find? fits with
  | some place => if atEnd then t.take place else t.drop place
  | none => t

end Pattern

end ShaderBackend.Shell
