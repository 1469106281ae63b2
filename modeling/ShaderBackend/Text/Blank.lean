import ShaderBackend.Text.Basic

/-!
White space, by the Unicode property White_Space, and the operations that remove it from the ends
of a text or split a text at it.
-/

namespace ShaderBackend

/-- The characters with the Unicode property White_Space. -/
def isBlank (c : Char) : Bool :=
  let n := c.toNat
  (0x09 ≤ n && n ≤ 0x0d) || n == 0x20 || n == 0x85 || n == 0xa0 || n == 0x1680 ||
    (0x2000 ≤ n && n ≤ 0x200a) || n == 0x2028 || n == 0x2029 || n == 0x202f || n == 0x205f ||
    n == 0x3000

namespace Text

/-- Without the characters at the end that satisfy `p`. -/
def dropEndWhile (p : Char → Bool) (t : Text) : Text :=
  (t.reverse.dropWhile p).reverse

def trimStart (t : Text) : Text :=
  t.dropWhile isBlank

def trimEnd (t : Text) : Text :=
  dropEndWhile isBlank t

def trim (t : Text) : Text :=
  trimStart (trimEnd t)

/-- The nonempty parts between blanks. -/
def words (t : Text) : List Text :=
  (t.splitOnP isBlank).filter (! ·.isEmpty)

end Text

end ShaderBackend
