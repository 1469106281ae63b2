import ShaderBackend.Text.Excerpt

/-!
Lists whose separators are the commas outside all brackets. The nesting depth goes up at an opening
bracket of any shape and down at a closing one, below zero too, and is counted in a signed word; a
comma separates where it is zero.
-/

namespace ShaderBackend

namespace Text

/-- How a character changes the nesting depth. -/
def nesting (c : Char) : Int32 :=
  if c == '[' || c == '(' || c == '\x7b' then 1
  else if c == ']' || c == ')' || c == '\x7d' then -1
  else 0

/-- The parts between the commas at depth zero, from a given depth on. -/
def topLevelParts (depth : Int32) : Text → List Text
  | [] => [[]]
  | c :: rest =>
    if c = ',' ∧ depth = 0 then [] :: topLevelParts depth rest
    else (topLevelParts (depth + nesting c) rest).modifyHead (c :: ·)

/-- The items of a list, without blanks around them. -/
def splitTopLevel (t : Text) : List Text :=
  (topLevelParts 0 t).map trim

end Text

/-- The items of a list, each where it stands. -/
def Excerpt.splitTopLevel (e : Excerpt) : List Excerpt :=
  (Excerpt.locate e.start (Text.topLevelParts 0 e.text)).map Excerpt.trim

end ShaderBackend
