import ShaderBackend.Bytes
import ShaderBackend.Code.Schedule

/-!
The end of a program. The hardware fetches code in groups of eight words, so code is filled up to a
whole number of groups. The first instruction after the code branches to itself, so that execution
cannot run past the end, and the rest do nothing; the scheduling words are patched to match.
-/

namespace ShaderBackend

namespace Code

def bundleWords : Nat := 4

def groupWords : Nat := 8

/-- An instruction that does nothing. -/
def nop : UInt64 := 0x50b0000000070f00

/-- A branch to itself in the first position of a bundle. -/
def branchFirst : UInt64 := 0xe2400fffff07000f

/-- A branch to itself in a later position. -/
def branchLater : UInt64 := 0xe2400fffff87000f

def branchSchedule : UInt32 := 0x7ff

def nopSchedule : UInt32 := 0x7e0

/-- The least multiple of eight that is not below the length. -/
def paddedLength (length : Nat) : Nat :=
  alignUp length groupWords

/-- Put an instruction at the end and its schedule into the bundle's control word. -/
def emit (code : List UInt64) (instruction : UInt64) (schedule : UInt32) : List UInt64 :=
  let position := code.length % bundleWords
  code.modify (code.length - position) (Schedule.patch · position schedule) ++ [instruction]

/-- The branch that fits the next position. -/
def branchAt (position : Nat) : UInt64 :=
  if position = 1 then branchFirst else branchLater

/-- Add words at the end: a control word where a bundle starts, and otherwise a branch if there is
none yet, or else an instruction that does nothing. -/
def pad : Nat → Bool → List UInt64 → List UInt64
  | 0, _, code => code
  | count + 1, branched, code =>
    let position := code.length % bundleWords
    if position = 0 then pad count branched (code ++ [0])
    else if branched then pad count true (emit code nop nopSchedule)
    else pad count true (emit code (branchAt position) branchSchedule)

/-- Fill up to a whole number of groups. -/
def finish (code : List UInt64) : List UInt64 :=
  pad (paddedLength code.length - code.length) false code

end Code

end ShaderBackend
