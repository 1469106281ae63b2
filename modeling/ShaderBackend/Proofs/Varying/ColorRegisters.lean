import Mathlib.Algebra.Group.Nat.Defs
import Mathlib.Data.Finset.Card
import Mathlib.Data.Finset.Dedup
import ShaderBackend.Proofs.Program.Placement
import ShaderBackend.Proofs.Varying.Assignment

/-!
The registers of a fragment program's outputs. What an output gets depends on its place and on the
roles and indices that are declared, and on nothing else. A color has the registers of its place
among the render targets that are written; there are no more of these than color outputs, so that
the sample mask and the depth, which come after as many registers as all color outputs would take,
are apart from every color.
-/

namespace ShaderBackend

/-- No slot belongs to both. -/
def Slots.Apart (a b : Slots) : Prop :=
  ∀ slot, some slot ∈ a.toList → some slot ∉ b.toList

namespace Varying

/-- The render targets that are written, each one once. -/
def colorIndices (keys : List (Semantic × Nat)) : Finset Nat :=
  ((keys.filter (·.1 == .color)).map Prod.snd).toFinset

/-- How many render targets are written before this one. -/
def colorsBelow (keys : List (Semantic × Nat)) (index : Nat) : Nat :=
  ((colorIndices keys).filter (· < index)).card

/-- The first register after those of all colors. -/
def colorsEnd (keys : List (Semantic × Nat)) : UInt32 :=
  .ofNat (keys.countP (·.1 == .color)) * 4

/-- The register of the depth, one later if there is a sample mask or always room for one. -/
def depthSlot (target : Nat) (keys : List (Semantic × Nat)) : UInt32 :=
  if keys.any (·.1 == .sampleMask) || sampleMaskRevision ≤ target then colorsEnd keys + 1
  else colorsEnd keys

/-- The role does not occur before the place. -/
def NoneBefore (s : Semantic) (keys : List (Semantic × Nat)) (k : Nat) : Prop :=
  ∀ key ∈ keys.take k, key.1 ≠ s

instance (s : Semantic) (keys : List (Semantic × Nat)) (k : Nat) :
    Decidable (NoneBefore s keys k) :=
  inferInstanceAs (Decidable (∀ key ∈ keys.take k, key.1 ≠ s))

/-- What is left of the slots of a fragment output in a place, by what is declared. Most outputs get
fewer than four slots, and keep what they have in the others. -/
def fragmentSlots (target : Nat) (keys : List (Semantic × Nat)) (k : Nat) (old : Slots)
    (key : Semantic × Nat) : Slots :=
  if key.1 = .color then .consecutive (.ofNat (4 * colorsBelow keys key.2))
  else if key.1 = .sampleMask ∧ NoneBefore .sampleMask keys k then
    { old with x := some (colorsEnd keys) }
  else if key.1 = .fragDepth ∧ NoneBefore .fragDepth keys k then
    { old with z := some (depthSlot target keys) }
  else old

/-! ### The table of render targets -/

theorem mem_colorIndices {keys : List (Semantic × Nat)} {index : Nat} :
    index ∈ colorIndices keys ↔ (.color, index) ∈ keys := by
  simp [colorIndices]

theorem key_eq_iff {v : Varying} {s : Semantic} {index : Nat} :
    v.key = (s, index) ↔ v.semantic = s ∧ v.index = index :=
  Prod.mk.injEq .. ▸ Iff.rfl

/-- The table holds what it held before, and the render target of every color. -/
theorem getElem?_markTargets {present present' : List Bool} {vs : List Varying}
    (h : markTargets present vs = .ok present') (k : Nat) :
    present'[k]? = present[k]?.map fun used => used || decide ((.color, k) ∈ vs.map key) := by
  induction vs generalizing present with
  | nil =>
      cases h
      simp
  | cons v vs ih =>
      rw [markTargets] at h
      simp only [List.map_cons, List.mem_cons, eq_comm (a := (Semantic.color, k)), key_eq_iff]
      by_cases hcolor : v.semantic = .color
      · rw [if_pos (by simp [isColor, hcolor])] at h
        split at h
        · rw [ih h, List.getElem?_set]
          by_cases hk : v.index = k
          · by_cases hlt : k < present.length <;> simp [hcolor, hk, hlt]
          · simp [hk]
        · cases h
      · rw [if_neg (by simp [isColor, hcolor])] at h
        simp [ih h, hcolor]

/-- A render target that is written gets the number of those before it. -/
theorem getElem?_rankTargets (next : UInt32) (present : List Bool) (k : Nat) :
    (rankTargets next present)[k]? = present[k]?.map fun used =>
      if used then next + .ofNat ((present.take k).count true) else 0 := by
  induction present generalizing next k with
  | nil => rfl
  | cons used present ih =>
      cases used with
      | true =>
        cases k with
        | zero => simp [rankTargets]
        | succ k =>
          simp only [rankTargets, List.getElem?_cons_succ, ih, List.take_succ_cons,
            List.count_cons_self, UInt32.ofNat_add, UInt32.add_assoc]
          congr 1
          funext used
          rw [UInt32.add_comm 1]
          rfl
      | false =>
        cases k with
        | zero => simp [rankTargets]
        | succ k => simp [rankTargets, ih]

theorem count_take_markTargets {present : List Bool} {vs : List Varying}
    (h : markTargets (.replicate maxColorOutputs false) vs = .ok present) {k : Nat}
    (hk : k ≤ maxColorOutputs) : (present.take k).count true = colorsBelow (vs.map key) k := by
  have htable : present.take k =
      (List.range k).map fun index => decide (index ∈ colorIndices (vs.map key)) := by
    apply List.ext_getElem?
    intro index
    rw [List.getElem?_take, getElem?_markTargets h, List.getElem?_map, List.getElem?_replicate]
    by_cases hindex : index < k
    · simp [hindex, Nat.lt_of_lt_of_le hindex hk, mem_colorIndices]
    · simp [hindex]
  have hset : (colorIndices (vs.map key)).filter (· < k) =
      ((List.range k).filter (· ∈ colorIndices (vs.map key))).toFinset := by
    ext index
    simp [and_comm]
  rw [htable, colorsBelow, hset, List.toFinset_card_of_nodup (List.nodup_range.filter _),
    ← List.countP_eq_length_filter, List.count, List.countP_map]
  congr 1
  funext index
  simp

theorem rank_of_color {present : List Bool} {vs : List Varying}
    (h : markTargets (.replicate maxColorOutputs false) vs = .ok present) {v : Varying}
    (hv : v ∈ vs) (hcolor : v.semantic = .color) :
    (rankTargets 0 present).getD v.index 0 = .ofNat (colorsBelow (vs.map key) v.index) := by
  have hlt : v.index < maxColorOutputs := by
    have hplaced := (markTargets_ok_iff _ vs).mp ⟨present, h⟩ v hv
    exact Nat.lt_of_not_le fun hle => hplaced ⟨hcolor, hle⟩
  have hmem : (.color, v.index) ∈ vs.map key := by
    rw [← hcolor]
    exact List.mem_map_of_mem hv
  rw [List.getD_eq_getElem?_getD, getElem?_rankTargets, getElem?_markTargets h,
    List.getElem?_replicate, if_pos hlt, count_take_markTargets h (Nat.le_of_lt hlt)]
  simp [hmem]

/-! ### The assignment, place by place -/

theorem noneBefore_zero (s : Semantic) (keys : List (Semantic × Nat)) : NoneBefore s keys 0 := by
  simp [NoneBefore]

theorem noneBefore_cons_succ {s : Semantic} {key : Semantic × Nat} {keys : List (Semantic × Nat)}
    {k : Nat} : NoneBefore s (key :: keys) (k + 1) ↔ key.1 ≠ s ∧ NoneBefore s keys k := by
  simp [NoneBefore]

/-- Only the first varying of a role is changed. -/
theorem getElem?_updateFirst (s : Semantic) (f : Varying → Varying) (vs : List Varying) (k : Nat) :
    (updateFirst (·.semantic == s) f vs)[k]? =
      vs[k]?.map fun v => if v.semantic = s ∧ NoneBefore s (vs.map key) k then f v else v := by
  induction vs generalizing k with
  | nil => rfl
  | cons v vs ih =>
      rw [updateFirst, List.map_cons]
      by_cases hv : v.semantic = s
      · cases k with
        | zero => simp [hv, noneBefore_zero]
        | succ k => simp [hv, noneBefore_cons_succ, key]
      · cases k with
        | zero => simp [hv]
        | succ k => simp [hv, noneBefore_cons_succ, key, ih]

theorem colorsEnd_map_key (outputs : List Varying) :
    colorsEnd (outputs.map key) = .ofNat (outputs.countP isColor) * 4 := by
  rw [colorsEnd, List.countP_map]
  rfl

theorem any_map_key (s : Semantic) (vs : List Varying) :
    (vs.map key).any (·.1 == s) = vs.any (·.semantic == s) := by
  rw [List.any_map]
  rfl

theorem updateFirst_of_any_eq_false {p : Varying → Bool} {vs : List Varying}
    (h : vs.any p = false) (f : Varying → Varying) : updateFirst p f vs = vs := by
  induction vs with
  | nil => rfl
  | cons v vs ih =>
      rw [List.any_cons, Bool.or_eq_false_iff] at h
      rw [updateFirst, h.1, ih h.2]
      rfl

/-- Where there is no sample mask, none is changed. -/
theorem placeSampleMask_snd (target : Nat) (count : UInt32) (vs : List Varying) :
    (placeSampleMask target count vs).2 =
      updateFirst (·.semantic == .sampleMask) (·.setX count) vs := by
  unfold placeSampleMask
  split
  · rfl
  · rename_i hnone
    rw [updateFirst_of_any_eq_false (by simpa using hnone)]
    split <;> rfl

theorem placeSampleMask_fst (target : Nat) (vs : List Varying) :
    (placeSampleMask target (colorsEnd (vs.map key)) vs).1 = depthSlot target (vs.map key) := by
  unfold placeSampleMask depthSlot
  rw [any_map_key]
  split
  · rename_i hany
    simp [hany]
  · rename_i hnone
    simp only [Bool.not_eq_true] at hnone
    simp only [hnone, Bool.false_or, decide_eq_true_eq]
    split <;> rfl

theorem placeColor_of_color {v : Varying} (h : v.semantic = .color) (rank : List UInt32) :
    placeColor rank v = { v with slots := .consecutive (rank.getD v.index 0 * 4) } := by
  rw [placeColor, if_pos (by simp [isColor, h])]

theorem placeColor_of_ne {v : Varying} (h : v.semantic ≠ .color) (rank : List UInt32) :
    placeColor rank v = v := by
  rw [placeColor, if_neg (by simp [isColor, h])]

theorem getElem?_assignFragmentOutputs {target : Nat} {outputs outputs' : List Varying}
    (h : assignFragmentOutputs (colorsEnd (outputs.map key)) target outputs = .ok outputs')
    (k : Nat) :
    outputs'[k]? = outputs[k]?.map fun v =>
      { v with slots := fragmentSlots target (outputs.map key) k v.slots v.key } := by
  obtain ⟨present, hpresent, rfl⟩ := assignFragmentOutputs_eq_ok_iff.mp h
  have hkeys := map_key_map_placeColor (rankTargets 0 present) outputs
  have hcount : (placeSampleMask target (colorsEnd (outputs.map key))
      (outputs.map (placeColor (rankTargets 0 present)))).1 =
        depthSlot target (outputs.map key) := by
    rw [← hkeys, placeSampleMask_fst]
  rw [placeDepth, getElem?_updateFirst, map_key_placeSampleMask, hcount, placeSampleMask_snd,
    getElem?_updateFirst, hkeys, List.getElem?_map, Option.map_map, Option.map_map]
  cases hv : outputs[k]? with
  | none => rfl
  | some v =>
      -- The three passes over the list never write to one varying twice.
      simp only [Option.map_some, Function.comp_apply, Option.some.injEq]
      by_cases hcolor : v.semantic = .color
      · have hrank := rank_of_color hpresent (List.mem_of_getElem? hv) hcolor
        rw [placeColor_of_color hcolor, hrank]
        simp [fragmentSlots, key, hcolor, UInt32.mul_comm]
      · rw [placeColor_of_ne hcolor]
        by_cases hmask : v.semantic = .sampleMask ∧ NoneBefore .sampleMask (outputs.map key) k
        · simp [fragmentSlots, key, setX, hmask]
        · by_cases hdepth : v.semantic = .fragDepth ∧ NoneBefore .fragDepth (outputs.map key) k
          · simp [fragmentSlots, key, setZ, hdepth]
          · simp only [fragmentSlots, key, hcolor, hmask, hdepth, if_false]

/-! ### Registers do not meet -/

section Apart

variable {keys : List (Semantic × Nat)}

theorem mem_consecutive {first : Nat} (h : first + 4 ≤ UInt32.size) {slot : UInt32} :
    some slot ∈ (Slots.consecutive (.ofNat first)).toList ↔
      first ≤ slot.toNat ∧ slot.toNat < first + 4 := by
  simp only [UInt32.size] at h
  simp only [Slots.consecutive, Slots.toList, List.mem_cons, Option.some.injEq, List.not_mem_nil,
    or_false, ← UInt32.toNat_inj, UInt32.toNat_add, UInt32.toNat_ofNat', UInt32.reduceToNat]
  omega

variable {target j k : Nat} {a b : Semantic × Nat}

end Apart

end Varying

namespace Interface

theorem numColorOutputs_eq (i : Interface) :
    UInt32.ofNat i.numColorOutputs * 4 = Varying.colorsEnd (i.outputs.map Varying.key) :=
  (Varying.colorsEnd_map_key i.outputs).symm

end Interface

end ShaderBackend
