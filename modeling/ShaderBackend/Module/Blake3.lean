import ShaderBackend.Bytes

/-!
The BLAKE3 hash of a byte string. The input is cut into chunks of 1024 bytes, each chunk is
compressed block by block, and the chunks are the leaves of a binary tree whose left subtrees are
as large as possible; the root gives the digest.
-/

namespace ShaderBackend.Blake3

abbrev Chaining := Vector UInt32 8

abbrev Block := Vector UInt32 16

def initial : Chaining :=
  #v[0x6a09e667, 0xbb67ae85, 0x3c6ef372, 0xa54ff53a, 0x510e527f, 0x9b05688c, 0x1f83d9ab, 0x5be0cd19]

def chunkStart : UInt32 := 1

def chunkEnd : UInt32 := 2

def parentFlag : UInt32 := 4

def rootFlag : UInt32 := 8

def rotateRight (word count : UInt32) : UInt32 :=
  (word >>> count) ||| (word <<< (32 - count))

/-- Mix two message words into a column or diagonal of the state. -/
def mix (s : Block) (a b c d : Fin 16) (x y : UInt32) : Block :=
  let s := s.set a (s[a] + s[b] + x)
  let s := s.set d (rotateRight (s[d] ^^^ s[a]) 16)
  let s := s.set c (s[c] + s[d])
  let s := s.set b (rotateRight (s[b] ^^^ s[c]) 12)
  let s := s.set a (s[a] + s[b] + y)
  let s := s.set d (rotateRight (s[d] ^^^ s[a]) 8)
  let s := s.set c (s[c] + s[d])
  s.set b (rotateRight (s[b] ^^^ s[c]) 7)

def round (s m : Block) : Block :=
  let s := mix s 0 4 8 12 m[0] m[1]
  let s := mix s 1 5 9 13 m[2] m[3]
  let s := mix s 2 6 10 14 m[4] m[5]
  let s := mix s 3 7 11 15 m[6] m[7]
  let s := mix s 0 5 10 15 m[8] m[9]
  let s := mix s 1 6 11 12 m[10] m[11]
  let s := mix s 2 7 8 13 m[12] m[13]
  mix s 3 4 9 14 m[14] m[15]

/-- The order of the message words in the next round. -/
def permute (m : Block) : Block :=
  #v[m[2], m[6], m[3], m[10], m[7], m[0], m[4], m[13], m[1], m[11], m[12], m[5], m[9], m[14],
    m[15], m[8]]

def rounds : Nat → Block → Block → Block
  | 0, s, _ => s
  | count + 1, s, m => rounds count (round s m) (permute m)

/-- The input of one compression. -/
structure Node where
  chaining : Chaining
  block : Block
  counter : UInt64
  length : UInt32
  flags : UInt32

/-- The chaining value of a node, with further flags. -/
def Node.compress (n : Node) (flags : UInt32) : Chaining :=
  let h := n.chaining
  let s := rounds 7
    #v[h[0], h[1], h[2], h[3], h[4], h[5], h[6], h[7], initial[0], initial[1], initial[2],
      initial[3], n.counter.toUInt32, (n.counter >>> 32).toUInt32, n.length, n.flags ||| flags]
    n.block
  .ofFn fun i => s[i.val] ^^^ s[i.val + 8]

/-- The words of a block, filled up with zeros. -/
def blockWords (bytes : Bytes) : Block :=
  .ofFn fun i => Bytes.toUInt32 ((bytes.drop (4 * i.val)).take 4 ++ [0, 0, 0, 0])

/-- The last block of a chunk, after the blocks before it are compressed. At most `fuel` blocks
follow the first. -/
def chunkNode (counter : UInt64) : Nat → Chaining → UInt32 → Bytes → Node
  | fuel + 1, chaining, flags, bytes =>
    let block := bytes.take 64
    let node : Node :=
      { chaining, block := blockWords block, counter, length := UInt32.ofNat block.length, flags }
    if bytes.length ≤ 64 then { node with flags := flags ||| chunkEnd }
    else chunkNode counter fuel (node.compress 0) 0 (bytes.drop 64)
  | 0, chaining, flags, bytes =>
    { chaining, block := blockWords bytes, counter, length := UInt32.ofNat bytes.length
      flags := flags ||| chunkEnd }

/-- The leaves of the tree, numbered from `counter` on; there is at least one. -/
def leaves (counter : UInt64) (bytes : Bytes) : List Node :=
  let leaf := chunkNode counter 15 initial chunkStart (bytes.take 1024)
  if bytes.length ≤ 1024 then [leaf]
  else leaf :: leaves (counter + 1) (bytes.drop 1024)
termination_by bytes.length
decreasing_by simp only [List.length_drop]; omega

def parent (left right : Chaining) : Node :=
  { chaining := initial, block := left ++ right, counter := 0, length := 64, flags := parentFlag }

/-- The largest power of two below a number of leaves. -/
def leftSize (count : Nat) : Nat :=
  1 <<< (count - 1).log2

theorem leftSize_lt (count : Nat) (h : 1 < count) : leftSize count < count := by
  have := Nat.log2_self_le (n := count - 1) (by omega)
  simp only [leftSize, Nat.one_shiftLeft]
  omega

/-- The node above a nonempty list of leaves. -/
def subtree (first : Node) (rest : List Node) : Node :=
  if _h : rest = [] then first
  else
    match hr : rest.drop (leftSize (rest.length + 1) - 1) with
    | [] => first
    | middle :: right =>
      parent ((subtree first (rest.take (leftSize (rest.length + 1) - 1))).compress 0)
        ((subtree middle right).compress 0)
termination_by rest.length
decreasing_by
  · have nonempty := List.length_pos_iff.mpr _h
    have below := leftSize_lt (rest.length + 1) (by omega)
    simp only [List.length_take]
    omega
  · have lengths := congrArg List.length hr
    simp only [List.length_drop, List.length_cons] at lengths
    omega

/-- The 32 bytes of the digest. -/
def digest (bytes : Bytes) : Vector UInt8 32 :=
  let root :=
    match leaves 0 bytes with
    | [] => chunkNode 0 0 initial chunkStart []
    | first :: rest => subtree first rest
  let words := root.compress rootFlag
  .ofFn fun i => (words[i.val / 4] >>> UInt32.ofNat (8 * (i.val % 4))).toUInt8

end ShaderBackend.Blake3
