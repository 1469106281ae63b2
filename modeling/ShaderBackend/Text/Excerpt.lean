import ShaderBackend.Text.Blank

/-!
Pieces of a source text that know where they stand. Every operation that takes an excerpt apart
keeps the positions right, so that a problem found deep inside a line can be reported at the bytes
it is about.
-/

namespace ShaderBackend

/-- A range of bytes of the source. -/
structure Span where
  start : Nat
  stop : Nat
  deriving DecidableEq, Repr

/-- The span of what is not about any part of the source. -/
def Span.dummy : Span := ⟨0, 0⟩

def Span.isDummy (s : Span) : Bool :=
  s.start == 0 && s.stop == 0

/-- A piece of the source: the byte at which it starts, and its characters. -/
structure Excerpt where
  start : Nat
  text : Text
  deriving DecidableEq, Repr

namespace Excerpt

def span (e : Excerpt) : Span :=
  ⟨e.start, e.start + e.text.utf8Length⟩

def isEmpty (e : Excerpt) : Bool :=
  e.text.isEmpty

/-- The longest beginning whose characters satisfy `p`, and the rest. -/
def splitWhile (p : Char → Bool) (e : Excerpt) : Excerpt × Excerpt :=
  (⟨e.start, e.text.takeWhile p⟩,
    ⟨e.start + Text.utf8Length (e.text.takeWhile p), e.text.dropWhile p⟩)

/-- What stands before the first occurrence of a character. -/
def before (c : Char) (e : Excerpt) : Excerpt :=
  (e.splitWhile (· != c)).1

/-- What starts at the first occurrence of a character. -/
def startingAt (c : Char) (e : Excerpt) : Excerpt :=
  (e.splitWhile (· != c)).2

/-- Without the first character. -/
def tail : Excerpt → Excerpt
  | ⟨start, []⟩ => ⟨start, []⟩
  | ⟨start, c :: rest⟩ => ⟨start + c.utf8Size, rest⟩

/-- Without the last character. -/
def dropLast (e : Excerpt) : Excerpt :=
  ⟨e.start, e.text.dropLast⟩

def trimStart (e : Excerpt) : Excerpt :=
  (e.splitWhile isBlank).2

def trimEnd (e : Excerpt) : Excerpt :=
  ⟨e.start, Text.trimEnd e.text⟩

/-- Without blanks at either end; an excerpt of blanks only shrinks to its start. -/
def trim (e : Excerpt) : Excerpt :=
  e.trimEnd.trimStart

/-- The first word, and what follows the blanks after it. -/
def splitWord (e : Excerpt) : Excerpt × Excerpt :=
  let (word, rest) := e.trimStart.splitWhile (! isBlank ·)
  (word, rest.trimStart)

/-- The two sides of the first occurrence of a separator. -/
def cutAt? (separator : Text) (e : Excerpt) : Option (Excerpt × Excerpt) :=
  (Text.cutAt? separator e.text).map fun (left, right) =>
    (⟨e.start, left⟩,
      ⟨e.start + Text.utf8Length left + Text.utf8Length separator, right⟩)

/-- Consecutive parts that stand one byte apart, from the place of the first. -/
def locate : Nat → List Text → List Excerpt
  | _, [] => []
  | start, part :: parts => ⟨start, part⟩ :: locate (start + part.utf8Length + 1) parts

/-- The lines of a source. -/
def lines (source : Text) : List Excerpt :=
  locate 0 (List.splitOn '\n' source)

end Excerpt

end ShaderBackend
