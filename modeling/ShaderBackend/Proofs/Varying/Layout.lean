import ShaderBackend.Proofs.Except
import ShaderBackend.Varying.Address

/-!
The layout behind the two tables of offsets. A role has one place in it or a row of places. The
table of the inputs gives every role its place; the table of the outputs gives the same place to
every role but those that can only be read, for every index.
-/

namespace ShaderBackend

/-- Byte offsets of a role in the register file. -/
inductive Placement where
  | single (offset : Nat)
  | row (base stride : Nat)
  deriving DecidableEq, Repr

namespace Placement

/-- The offset is that of the index. -/
def Holds (index offset : Nat) : Placement → Prop
  | single place => offset = place
  | row base stride => index ≤ maxSemanticIndex ∧ offset = base + index * stride

/-- Offsets and strides are whole words, no place or row starts past the last row, and the places
of a row are at most four words apart. -/
def Aligned : Placement → Prop
  | single offset => offset % 4 = 0 ∧ offset ≤ 0x300
  | row base stride => base % 4 = 0 ∧ base ≤ 0x300 ∧ stride % 4 = 0 ∧ 0 < stride ∧ stride ≤ 0x10

/-- Every number on the way to an offset, and from there to four slots, has 32 bits. -/
def FitsWord (index : Nat) : Placement → Prop
  | single offset => offset + 3 * 4 < UInt32.size
  | row base stride => index * stride < UInt32.size ∧ base + index * stride + 3 * 4 < UInt32.size

theorem Aligned.of_holds {p : Placement} {index offset : Nat} (h : p.Aligned)
    (hp : p.Holds index offset) :
    offset % 4 = 0 ∧ offset ≤ 0x300 + 255 * 0x10 ∧ p.FitsWord index := by
  cases p with
  | single place =>
      obtain ⟨hmod, hle⟩ := h
      obtain rfl : offset = place := hp
      simp only [FitsWord, UInt32.size]
      omega
  | row base stride =>
      obtain ⟨hbase, hbaseLe, hstride, -, hstrideLe⟩ := h
      obtain ⟨hindex, rfl⟩ := hp
      have hrow : index * stride ≤ 255 * 0x10 := Nat.mul_le_mul hindex hstrideLe
      have hmod : index * stride % 4 = 0 := by rw [Nat.mul_mod, hstride, Nat.mul_zero, Nat.zero_mod]
      simp only [FitsWord, UInt32.size]
      omega

end Placement

namespace Semantic

def placement? : Semantic → Option Placement
  | tessOuter => some (.row 0x000 0x04)
  | tessInner => some (.row 0x010 0x04)
  | patch => some (.row 0x020 0x10)
  | primitiveId => some (.single 0x060)
  | layer => some (.single 0x064)
  | viewportIndex => some (.single 0x068)
  | pointSize => some (.single 0x06c)
  | position => some (.single 0x070)
  | generic => some (.row 0x080 0x10)
  | clipVertex => some (.single 0x270)
  | color => some (.row 0x280 0x10)
  | backColor => some (.row 0x2a0 0x10)
  | clipDistance => some (.row 0x2c0 0x10)
  | pointCoord => some (.single 0x2e0)
  | fog => some (.single 0x2e8)
  | tessCoord => some (.single 0x2f0)
  | instanceId => some (.single 0x2f8)
  | vertexId => some (.single 0x2fc)
  | texcoord => some (.row 0x300 0x10)
  | edgeFlag | face | sampleId | samplePos | sampleMask | invocationId | fragDepth => none

/-- The roles that a stage can only read. -/
def isReadOnly : Semantic → Bool
  | pointCoord | tessCoord | instanceId | vertexId => true
  | _ => false

variable {s : Semantic} {index offset : Nat}

theorem aligned_placement {p : Placement} (h : s.placement? = some p) : p.Aligned := by
  cases s <;> cases h <;> simp [Placement.Aligned]

theorem rowOffset_eq_ok_iff {direction : Direction} {base stride : Nat} :
    s.rowOffset direction index base stride = .ok offset ↔
      (Placement.row base stride).Holds index offset := by
  unfold rowOffset Placement.Holds
  split
  · rename_i hindex
    simp [hindex, eq_comm]
  · rename_i hindex
    simp [hindex]

/-- An input has the place of its role. -/
theorem inputAddress_eq_ok_iff :
    s.inputAddress index = .ok offset ↔ ∃ p, s.placement? = some p ∧ p.Holds index offset := by
  cases s <;>
    simp [inputAddress, placement?, rowOffset_eq_ok_iff, Placement.Holds, @eq_comm _ _ offset]

/-- So has an output, unless its role can only be read. -/
theorem outputAddress_eq_offset_iff_holds :
    s.outputAddress index = .ok (.offset offset) ↔
      s.isReadOnly = false ∧ ∃ p, s.placement? = some p ∧ p.Holds index offset := by
  cases s <;>
    simp [outputAddress, placement?, isReadOnly, Except.map_eq_ok_iff, rowOffset_eq_ok_iff,
      Placement.Holds, @eq_comm _ _ offset]

/-- A role is written where it is read, unless it can only be read. -/
theorem outputAddress_eq_offset_iff :
    s.outputAddress index = .ok (.offset offset) ↔
      s.isReadOnly = false ∧ s.inputAddress index = .ok offset := by
  rw [outputAddress_eq_offset_iff_holds, inputAddress_eq_ok_iff]

theorem outputAddress_eq_unsupported_iff :
    s.outputAddress index = .ok .unsupported ↔ s = .edgeFlag := by
  cases s <;> simp [outputAddress, Except.map_eq_ok_iff]

theorem inputAddress_spec (h : s.inputAddress index = .ok offset) :
    offset % 4 = 0 ∧ offset ≤ 0x300 + 255 * 0x10 ∧
      ∃ p, s.placement? = some p ∧ p.Holds index offset ∧ p.FitsWord index := by
  obtain ⟨p, hplace, hp⟩ := inputAddress_eq_ok_iff.mp h
  obtain ⟨hmod, hle, hfits⟩ := (aligned_placement hplace).of_holds hp
  exact ⟨hmod, hle, p, hplace, hp, hfits⟩

/-! ### Lower indices are no harder to place -/

theorem inputAddress_ok_of_le {i j : Nat} (hij : i ≤ j)
    (h : ∃ offset, s.inputAddress j = .ok offset) : ∃ offset, s.inputAddress i = .ok offset := by
  simp only [inputAddress_eq_ok_iff] at h ⊢
  obtain ⟨offset, p, hplace, hp⟩ := h
  cases p with
  | single place => exact ⟨place, _, hplace, rfl⟩
  | row base stride => exact ⟨_, _, hplace, Nat.le_trans hij hp.1, rfl⟩

theorem outputAddress_ok_of_le {i j : Nat} (hij : i ≤ j)
    (h : ∃ address, s.outputAddress j = .ok address) :
    ∃ address, s.outputAddress i = .ok address := by
  obtain ⟨address, h⟩ := h
  cases address with
  | unsupported => exact ⟨.unsupported, outputAddress_eq_unsupported_iff.mpr
      (outputAddress_eq_unsupported_iff.mp h)⟩
  | offset place =>
      obtain ⟨hwritten, hplace⟩ := outputAddress_eq_offset_iff.mp h
      obtain ⟨place', hplace'⟩ := inputAddress_ok_of_le hij ⟨place, hplace⟩
      exact ⟨.offset place', outputAddress_eq_offset_iff.mpr ⟨hwritten, hplace'⟩⟩

end Semantic

end ShaderBackend
