/-!
Scheduling words. Code comes in bundles of four 64-bit words; the first word of a bundle controls
the three instructions after it, with 21 bits for each. The field of the first instruction is the
lowest, and the top bit belongs to no field.
-/

namespace ShaderBackend

namespace Schedule

/-- The 21 low bits. -/
def fieldMask : UInt64 := 0x1fffff

/-- Where the field of a position starts; positions count from one. -/
def shift (position : Nat) : UInt64 :=
  UInt64.ofNat (21 * (position - 1))

/-- The field of a position. -/
def field (word : UInt64) (position : Nat) : UInt32 :=
  ((word >>> shift position) &&& fieldMask).toUInt32

/-- Replace the field of a position by the low bits of a value. -/
def patch (word : UInt64) (position : Nat) (value : UInt32) : UInt64 :=
  (word &&& ~~~(fieldMask <<< shift position)) |||
    ((value.toUInt64 &&& fieldMask) <<< shift position)

end Schedule

end ShaderBackend
