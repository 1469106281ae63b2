import ShaderBackend.Proofs.Varying.ColorRegisters

/-!
The slots of every varying as one formula. What a varying gets is a function of the stage, the
target, its place and the roles and indices that are declared on its side of the interface; its
mask changes only where it is a value that the driver makes up. Slots can be assigned unless some
varying has no place.
-/

namespace ShaderBackend

namespace Varying

/-- How many varyings before a place are packed by a vertex program. -/
def packedBefore (keys : List (Semantic × Nat)) (k : Nat) : Nat :=
  (keys.take k).countP fun key => key.1 != .instanceId && key.1 != .vertexId

/-- The slots of an input that is read from the fixed layout. -/
def fixedInputSlots (key : Semantic × Nat) : Slots :=
  match key.1.inputAddress key.2 with
  | .ok offset => .consecutive (.ofNat (offset / 4))
  | .error _ => .unassigned

/-- What is left of the slots of an output that is written to the fixed layout. -/
def fixedOutputSlots (old : Slots) (key : Semantic × Nat) : Slots :=
  match key.1.outputAddress key.2 with
  | .ok (.offset offset) => .consecutive (.ofNat (offset / 4))
  | _ => old

def inputSlots (stage : Stage) (keys : List (Semantic × Nat)) (k : Nat) (old : Slots)
    (key : Semantic × Nat) : Slots :=
  if stage = .vertex then vertexSlots (.ofNat (packedBefore keys k)) old key.1
  else fixedInputSlots key

def outputSlots (stage : Stage) (target : Nat) (keys : List (Semantic × Nat)) (k : Nat)
    (old : Slots) (key : Semantic × Nat) : Slots :=
  if stage = .fragment then fragmentSlots target keys k old key else fixedOutputSlots old key

/-! ### Place by place -/

theorem vertexSlots_eq_fromOffset {v : Varying} (h : v.isSystemValue = false) (packed : Nat)
    (old : Slots) :
    vertexSlots (.ofNat packed) old v.semantic = .fromOffset (.ofNat (0x80 + 0x10 * packed)) := by
  rw [vertexSlots_of_packed h, UInt32.ofNat_add, UInt32.ofNat_mul, UInt32.mul_comm]
  rfl

/-- So many places from 0x80 on end inside 32 bits. -/
theorem vertexSlots_eq_consecutive {v : Varying} (h : v.isSystemValue = false) {packed : Nat}
    (hcount : packed + 8 < 2 ^ 28) (old : Slots) :
    vertexSlots (.ofNat packed) old v.semantic = .consecutive (.ofNat (0x20 + 4 * packed)) := by
  have hoffset : (0x80 + 0x10 * packed) / 4 = 0x20 + 4 * packed := by omega
  rw [vertexSlots_eq_fromOffset h, Slots.fromOffset_ofNat (by simp only [UInt32.size]; omega),
    hoffset]

theorem packedBefore_zero (keys : List (Semantic × Nat)) : packedBefore keys 0 = 0 := by
  simp [packedBefore]

theorem packedBefore_cons_succ (v : Varying) (keys : List (Semantic × Nat)) (k : Nat) :
    packedBefore (v.key :: keys) (k + 1) =
      (if v.isSystemValue then 0 else 1) + packedBefore keys k := by
  rw [packedBefore, List.take_succ_cons, List.countP_cons, Nat.add_comm]
  congr 1
  unfold isSystemValue key
  cases v.semantic <;> rfl

theorem packedBefore_map_key (vs : List Varying) (k : Nat) :
    packedBefore (vs.map key) k = (vs.take k).countP (!·.isSystemValue) := by
  rw [packedBefore, ← List.map_take, List.countP_map]
  congr 1
  funext v
  simp [isSystemValue, key, bne]

theorem getElem?_assignVertexInputs {n : UInt32} {vs vs' : List Varying}
    (h : assignVertexInputs n vs = .ok vs') (k : Nat) :
    vs'[k]? = vs[k]?.map fun v =>
      { v with
        mask := inputMask .vertex v
        slots := vertexSlots (n + .ofNat (packedBefore (vs.map key) k)) v.slots v.semantic } := by
  induction vs generalizing n vs' k with
  | nil =>
      cases h
      rfl
  | cons v vs ih =>
      rw [assignVertexInputs_cons] at h
      obtain ⟨rest, hrest, rfl⟩ := Except.map_eq_ok_iff.mp h
      rw [List.map_cons]
      cases k with
      | zero => simp [packedBefore_zero]
      | succ k =>
        rw [List.getElem?_cons_succ, ih hrest, List.getElem?_cons_succ, packedBefore_cons_succ,
          UInt32.ofNat_add, ← UInt32.add_assoc]
        cases v.isSystemValue <;> rfl

theorem eq_of_assignFixedInput {v v' : Varying} (h : v.assignFixedInput = .ok v') :
    v' = { v with slots := fixedInputSlots v.key } := by
  obtain ⟨offset, hoffset, rfl⟩ := assignFixedInput_eq_ok_iff.mp h
  simp [fixedInputSlots, key, hoffset]

theorem eq_of_assignFixedOutput {v v' : Varying} (h : v.assignFixedOutput = .ok v') :
    v' = { v with slots := fixedOutputSlots v.slots v.key } := by
  rcases assignFixedOutput_eq_ok_iff.mp h with ⟨offset, hoffset, rfl⟩ | ⟨hnone, rfl⟩
  · simp [fixedOutputSlots, key, hoffset]
  · simp [fixedOutputSlots, key, hnone]

end Varying

namespace Interface

variable {i i' : Interface}

/-- What the policy for the inputs of a stage does to each of them, whatever slots it has. -/
theorem getElem?_of_assignInputs {inputs : List Varying} (h : i.assignInputs = .ok inputs)
    (k : Nat) :
    inputs[k]? = i.inputs[k]?.map fun v =>
      { v with
        mask := v.inputMask i.stage
        slots := Varying.inputSlots i.stage (i.inputs.map Varying.key) k v.slots v.key } := by
  unfold assignInputs at h
  split at h
  · rename_i hstage
    simp [Varying.getElem?_assignVertexInputs h, Varying.inputSlots, Varying.key, hstage]
  · rename_i hstage
    have hmap := Except.eq_map_of_mapM (fun _ _ => Varying.eq_of_assignFixedInput) h
    simp [hmap, Varying.inputSlots, Varying.inputMask, hstage]

/-- What the policy for the outputs of a stage does to each of them, whatever slots it has. -/
theorem getElem?_of_assignOutputs {outputs : List Varying} (h : i.assignOutputs = .ok outputs)
    (k : Nat) :
    outputs[k]? = i.outputs[k]?.map fun v =>
      { v with
        slots :=
          Varying.outputSlots i.stage i.target (i.outputs.map Varying.key) k v.slots v.key } := by
  unfold assignOutputs at h
  split at h
  · rename_i hstage
    rw [numColorOutputs_eq] at h
    simp [Varying.getElem?_assignFragmentOutputs h, Varying.outputSlots, hstage]
  · rename_i hstage
    have hmap := Except.eq_map_of_mapM (fun _ _ => Varying.eq_of_assignFixedOutput) h
    simp [hmap, Varying.outputSlots, hstage]

-- A sample mask is written to its first slot, and an output that goes nowhere is not written.
example :
    (assignOutputs {
      stage := .fragment, target := 0
      outputs := [{ semantic := .sampleMask, index := 0, slots := .consecutive 60 },
        { semantic := .edgeFlag, index := 0, slots := .consecutive 99 }] }).map
        (·.map Varying.slots) =
      .ok [{ Slots.consecutive 60 with x := some 0 }, .consecutive 99] := by
  rfl

/-- Every input is the one that was declared there, with the mask and the slots of the formula. The
reset has left no slots for the formula to keep. -/
theorem getElem?_inputs_of_assignSlots (h : i.assignSlots = .ok i') (k : Nat) :
    i'.inputs[k]? = i.inputs[k]?.map fun v =>
      { v with
        mask := v.inputMask i.stage
        slots :=
          Varying.inputSlots i.stage (i.inputs.map Varying.key) k .unassigned v.key } := by
  obtain ⟨inputs, outputs, hinputs, -, rfl⟩ := assignSlots_eq_ok_iff.mp h
  rw [getElem?_of_assignInputs hinputs, reset, Varying.map_key_map_clear, List.getElem?_map,
    Option.map_map]
  rfl

/-- Every output is the one that was declared there, with the slots of the formula. -/
theorem getElem?_outputs_of_assignSlots (h : i.assignSlots = .ok i') (k : Nat) :
    i'.outputs[k]? = i.outputs[k]?.map fun v =>
      { v with
        slots := Varying.outputSlots i.stage i.target (i.outputs.map Varying.key) k .unassigned
          v.key } := by
  obtain ⟨inputs, outputs, -, houtputs, rfl⟩ := assignSlots_eq_ok_iff.mp h
  rw [getElem?_of_assignOutputs houtputs, reset, Varying.map_key_map_clear, List.getElem?_map,
    Option.map_map]
  rfl

/-! ### When it fails -/

theorem not_all_inputs_placeable_iff (i : Interface) :
    (¬ ∀ v ∈ i.inputs, Placeable i.stage .input v.semantic v.index) ↔
      i.stage ≠ .vertex ∧ ∃ v ∈ i.inputs, ∃ e, v.semantic.inputAddress v.index = .error e := by
  simp only [Placeable, ← Except.not_exists_ok_iff]
  by_cases hstage : i.stage = .vertex
  · simp [hstage]
  · simp [hstage]

theorem not_all_outputs_placeable_iff (i : Interface) :
    (¬ ∀ v ∈ i.outputs, Placeable i.stage .output v.semantic v.index) ↔
      (i.stage = .fragment ∧ ∃ v ∈ i.outputs, v.semantic = .color ∧ maxColorOutputs ≤ v.index) ∨
      (i.stage ≠ .fragment ∧
        ∃ v ∈ i.outputs, ∃ e, v.semantic.outputAddress v.index = .error e) := by
  simp only [Placeable, ← Except.not_exists_ok_iff]
  by_cases hstage : i.stage = .fragment
  · simp [hstage]
  · simp [hstage]

/-- The slots of an interface with assigned slots, in each stage but for the outputs of a fragment
program. Packed inputs are counted in words of 32 bits, and have consecutive slots in their order as
long as none of these words wraps around. -/
structure FollowsFormula (i i' : Interface) : Prop where
  length_inputs : i'.inputs.length = i.inputs.length
  length_outputs : i'.outputs.length = i.outputs.length
  system_value : i.stage = .vertex →
    ∀ (k : Nat) (v v' : Varying), i.inputs[k]? = some v → i'.inputs[k]? = some v' →
      (v.semantic = .instanceId → v'.mask = 1 ∧ v'.slots = ⟨some 0xbe, none, none, none⟩) ∧
      (v.semantic = .vertexId → v'.mask = 1 ∧ v'.slots = ⟨some 0xbf, none, none, none⟩)
  packed : i.stage = .vertex →
    ∀ (k : Nat) (v v' : Varying), i.inputs[k]? = some v → i'.inputs[k]? = some v' →
      v.isSystemValue = false →
      v'.slots = .fromOffset (.ofNat (0x80 + 0x10 * (i.inputs.take k).countP (!·.isSystemValue)))
  packed_counted : i.stage = .vertex →
    ∀ (k : Nat) (v v' : Varying), i.inputs[k]? = some v → i'.inputs[k]? = some v' →
      v.isSystemValue = false → (i.inputs.take k).countP (!·.isSystemValue) + 8 < 2 ^ 28 →
      v'.slots = .consecutive (.ofNat (0x20 + 4 * (i.inputs.take k).countP (!·.isSystemValue)))
  fixed_input : i.stage ≠ .vertex →
    ∀ (k : Nat) (v v' : Varying), i.inputs[k]? = some v → i'.inputs[k]? = some v' →
      ∃ address, v.semantic.inputAddress v.index = .ok address ∧
        v'.slots = .consecutive (.ofNat (address / 4))
  fixed_output : i.stage ≠ .fragment →
    ∀ (k : Nat) (v v' : Varying), i.outputs[k]? = some v → i'.outputs[k]? = some v' →
      (∃ offset, v.semantic.outputAddress v.index = .ok (.offset offset) ∧
        v'.slots = .consecutive (.ofNat (offset / 4))) ∨
      (v.semantic.outputAddress v.index = .ok .unsupported ∧ v'.slots = .unassigned)

theorem vertex_input (hstage : i.stage = .vertex) (h : i.assignSlots = .ok i') {k : Nat}
    {v v' : Varying} (hv : i.inputs[k]? = some v) (hv' : i'.inputs[k]? = some v') :
    v'.mask = v.inputMask .vertex ∧
      v'.slots = Varying.vertexSlots (.ofNat ((i.inputs.take k).countP (!·.isSystemValue)))
        .unassigned v.semantic := by
  rw [getElem?_inputs_of_assignSlots h, hv] at hv'
  cases hv'
  simp [Varying.inputSlots, hstage, Varying.packedBefore_map_key, Varying.key]

theorem followsFormula_of_assignSlots (h : i.assignSlots = .ok i') : FollowsFormula i i' where
  length_inputs := by simpa using congrArg List.length (map_key_of_assignSlots h).2.2.1
  length_outputs := by simpa using congrArg List.length (map_key_of_assignSlots h).2.2.2
  system_value hstage k v v' hv hv' := by
    obtain ⟨hmask, hslots⟩ := vertex_input hstage h hv hv'
    constructor
    · intro hrole
      rw [hmask, hslots, hrole]
      exact ⟨by simp [Varying.inputMask, Varying.isSystemValue, hrole], rfl⟩
    · intro hrole
      rw [hmask, hslots, hrole]
      exact ⟨by simp [Varying.inputMask, Varying.isSystemValue, hrole], rfl⟩
  packed hstage k v v' hv hv' hpacked := by
    rw [(vertex_input hstage h hv hv').2, Varying.vertexSlots_eq_fromOffset hpacked]
  packed_counted hstage k v v' hv hv' hpacked hcount := by
    rw [(vertex_input hstage h hv hv').2, Varying.vertexSlots_eq_consecutive hpacked hcount]
  fixed_input hstage k v v' hv hv' := by
    have hmem := List.mem_of_getElem? hv'
    rw [getElem?_inputs_of_assignSlots h, hv] at hv'
    cases hv'
    exact Interface.fixed_input hstage h hmem
  fixed_output hstage k v v' hv hv' := by
    have hmem := List.mem_of_getElem? hv'
    rw [getElem?_outputs_of_assignSlots h, hv] at hv'
    cases hv'
    exact Interface.fixed_output hstage h hmem

/-- Slots can be assigned unless some varying has no place, and then each varying has those of the
formula for its stage and its side of the interface. -/
theorem assignSlots_follows_formula (i : Interface) :
    ((∃ e, i.assignSlots = .error e) ↔
      (i.stage ≠ .vertex ∧ ∃ v ∈ i.inputs, ∃ e, v.semantic.inputAddress v.index = .error e) ∨
      (i.stage = .fragment ∧ ∃ v ∈ i.outputs, v.semantic = .color ∧ 8 ≤ v.index) ∨
      (i.stage ≠ .fragment ∧
        ∃ v ∈ i.outputs, ∃ e, v.semantic.outputAddress v.index = .error e)) ∧
    ∀ i', i.assignSlots = .ok i' → FollowsFormula i i' := by
  refine ⟨?_, fun i' h => followsFormula_of_assignSlots h⟩
  rw [← Except.not_exists_ok_iff, assignSlots_ok_iff, not_and_or, not_all_inputs_placeable_iff,
    not_all_outputs_placeable_iff]
  rfl

/-- Vertex inputs of which every other one is made up by the driver, and outputs of which the last
goes nowhere. -/
def mixedInputs : Interface where
  stage := .vertex
  target := 0x12b
  inputs := [{ semantic := .instanceId, index := 3 }, { semantic := .generic, index := 7 },
    { semantic := .vertexId, index := 0 }, { semantic := .face, index := 300 }]
  outputs := [{ semantic := .clipDistance, index := 1 }, { semantic := .edgeFlag, index := 0 }]

theorem assignSlots_follows_formula_mixedInputs :
    ∃ i', mixedInputs.assignSlots = .ok i' ∧ FollowsFormula mixedInputs i' ∧
      i'.inputs.map Varying.mask = [1, 0xf, 1, 0xf] ∧
      i'.inputs.map Varying.slots =
        [{ x := some 0xbe }, .consecutive 0x20, { x := some 0xbf }, .consecutive 0x24] ∧
      i'.outputs.map Varying.slots = [.consecutive 0xb4, .unassigned] :=
  ⟨_, rfl, (assignSlots_follows_formula mixedInputs).2 _ rfl, rfl, rfl, rfl⟩

end Interface

end ShaderBackend
