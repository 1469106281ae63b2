import ShaderBackend.Proofs.Varying.Layout
import ShaderBackend.Varying.Assignment

/-!
What the assignment of slots does to each varying. Every varying keeps its role, its index and its
place in the list; where the fixed layout decides, it gets four slots in a row from the offset of
its role and index on.
-/

namespace ShaderBackend

/-- The words from an offset on have slots in a row, if the last of them is inside 32 bits. -/
theorem Slots.fromOffset_ofNat {offset : Nat} (h : offset + 12 < UInt32.size) :
    fromOffset (.ofNat offset) = consecutive (.ofNat (offset / 4)) := by
  simp only [UInt32.size] at h
  simp only [fromOffset, consecutive, mk.injEq, Option.some.injEq, ← UInt32.toNat_inj,
    UInt32.toNat_div, UInt32.toNat_add, UInt32.toNat_ofNat', UInt32.reduceToNat]
  omega

namespace Varying

/-- What a varying is known by, whatever slots and mask it has. -/
def key (v : Varying) : Semantic × Nat :=
  (v.semantic, v.index)

@[simp] theorem key_placeAt (v : Varying) (offset : UInt32) : (v.placeAt offset).key = v.key := rfl

@[simp] theorem key_setX (v : Varying) (slot : UInt32) : (v.setX slot).key = v.key := rfl

@[simp] theorem key_setZ (v : Varying) (slot : UInt32) : (v.setZ slot).key = v.key := rfl

@[simp] theorem key_clear (v : Varying) : v.clear.key = v.key := rfl

theorem map_key_map_clear (vs : List Varying) : (vs.map clear).map key = vs.map key := by
  rw [List.map_map]
  rfl

theorem inputOffset_eq_ok_iff {v : Varying} {index : Nat} {offset : UInt32} :
    v.inputOffset index = .ok offset ↔
      ∃ place, v.semantic.inputAddress index = .ok place ∧ offset = .ofNat place := by
  unfold inputOffset
  cases v.semantic.inputAddress index with
  | error reason => simp
  | ok place => simp [eq_comm]

theorem assignFixedInput_eq_ok_iff {v v' : Varying} :
    v.assignFixedInput = .ok v' ↔
      ∃ offset, v.semantic.inputAddress v.index = .ok offset ∧
        v' = { v with slots := .consecutive (.ofNat (offset / 4)) } := by
  unfold assignFixedInput
  simp only [Except.bind_eq_ok_iff, inputOffset_eq_ok_iff, pure, Except.pure, Except.ok.injEq]
  constructor
  · rintro ⟨_, ⟨offset, hoffset, rfl⟩, rfl⟩
    obtain ⟨-, hle, -⟩ := Semantic.inputAddress_spec hoffset
    rw [placeAt, Slots.fromOffset_ofNat (by simp only [UInt32.size]; omega)]
    exact ⟨offset, hoffset, rfl⟩
  · rintro ⟨offset, hoffset, rfl⟩
    obtain ⟨-, hle, -⟩ := Semantic.inputAddress_spec hoffset
    refine ⟨_, ⟨offset, hoffset, rfl⟩, ?_⟩
    rw [placeAt, Slots.fromOffset_ofNat (by simp only [UInt32.size]; omega)]

/-- An output that goes nowhere keeps the slots that it has. -/
theorem assignFixedOutput_eq_ok_iff {v v' : Varying} :
    v.assignFixedOutput = .ok v' ↔
      (∃ offset, v.semantic.outputAddress v.index = .ok (.offset offset) ∧
        v' = { v with slots := .consecutive (.ofNat (offset / 4)) }) ∨
      (v.semantic.outputAddress v.index = .ok .unsupported ∧ v' = v) := by
  unfold assignFixedOutput
  cases haddress : v.semantic.outputAddress v.index with
  | error reason => simp
  | ok address =>
      cases address with
      | unsupported => simp [eq_comm]
      | offset offset =>
        have hread := (Semantic.outputAddress_eq_offset_iff.mp haddress).2
        obtain ⟨-, hle, -⟩ := Semantic.inputAddress_spec hread
        have hfits : offset + 12 < UInt32.size := by simp only [UInt32.size]; omega
        simp [placeAt, Slots.fromOffset_ofNat hfits, eq_comm]

/-! ### Vertex inputs -/

/-- What is left of the slots of a vertex input, if so many inputs before it are packed. -/
def vertexSlots (packed : UInt32) (old : Slots) : Semantic → Slots
  | .instanceId => { old with x := some 0xbe }
  | .vertexId => { old with x := some 0xbf }
  | _ => .fromOffset (0x80 + packed * 0x10)

def inputMask (stage : Stage) (v : Varying) : UInt8 :=
  if stage = .vertex ∧ v.isSystemValue = true then 1 else v.mask

theorem isSystemValue_iff {v : Varying} :
    v.isSystemValue = true ↔ v.semantic = .instanceId ∨ v.semantic = .vertexId := by
  simp [isSystemValue]

theorem isSystemValue_eq_false_iff {v : Varying} :
    v.isSystemValue = false ↔ v.semantic ≠ .instanceId ∧ v.semantic ≠ .vertexId := by
  simp [isSystemValue]

theorem vertexSlots_of_packed {v : Varying} (h : v.isSystemValue = false) (packed : UInt32)
    (old : Slots) : vertexSlots packed old v.semantic = .fromOffset (0x80 + packed * 0x10) := by
  obtain ⟨hinstance, hvertex⟩ := isSystemValue_eq_false_iff.mp h
  unfold vertexSlots
  split
  · rename_i hrole
    exact absurd hrole hinstance
  · rename_i hrole
    exact absurd hrole hvertex
  · rfl

/-- A value that the driver makes up has a place in the fixed layout. -/
theorem inputOffset_of_isSystemValue {v : Varying} (h : v.isSystemValue = true) (packed : UInt32)
    (old : Slots) : ∃ offset, v.inputOffset 0 = .ok offset ∧
      vertexSlots packed old v.semantic = { old with x := some (offset / 4) } := by
  rcases isSystemValue_iff.mp h with hrole | hrole
  · exact ⟨0x2f8, by rw [inputOffset, hrole]; rfl, by rw [hrole]; rfl⟩
  · exact ⟨0x2fc, by rw [inputOffset, hrole]; rfl, by rw [hrole]; rfl⟩

/-- The first input gets its slots, and takes a place only if it is packed. -/
theorem assignVertexInputs_cons (n : UInt32) (v : Varying) (vs : List Varying) :
    assignVertexInputs n (v :: vs) =
      (assignVertexInputs (n + if v.isSystemValue then 0 else 1) vs).map ({ v with
        mask := inputMask .vertex v, slots := vertexSlots n v.slots v.semantic } :: ·) := by
  rw [assignVertexInputs]
  by_cases hsystem : v.isSystemValue = true
  · obtain ⟨offset, hoffset, hslots⟩ := inputOffset_of_isSystemValue hsystem n v.slots
    rw [if_pos hsystem, if_pos hsystem, hoffset, hslots, Except.ok_bind, UInt32.add_zero]
    cases assignVertexInputs n vs with
    | error e => rfl
    | ok rest => simp [inputMask, hsystem, setX, Except.map, pure, Except.pure]
  · have hpacked : v.isSystemValue = false := by simpa using hsystem
    rw [if_neg hsystem, if_neg hsystem, vertexSlots_of_packed hpacked]
    cases assignVertexInputs (n + 1) vs with
    | error e => rfl
    | ok rest => simp [inputMask, hpacked, placeAt, Except.map, pure, Except.pure]

theorem assignVertexInputs_ok (n : UInt32) (vs : List Varying) :
    ∃ vs', assignVertexInputs n vs = .ok vs' := by
  induction vs generalizing n with
  | nil => exact ⟨[], rfl⟩
  | cons v vs ih =>
      obtain ⟨rest, hrest⟩ := ih (n + if v.isSystemValue then 0 else 1)
      rw [assignVertexInputs_cons, hrest]
      exact ⟨_, rfl⟩

/-! ### Roles and indices -/

theorem map_key_of_assignVertexInputs {n : UInt32} {vs vs' : List Varying}
    (h : assignVertexInputs n vs = .ok vs') : vs'.map key = vs.map key := by
  induction vs generalizing n vs' with
  | nil =>
      cases h
      rfl
  | cons v vs ih =>
      rw [assignVertexInputs_cons] at h
      obtain ⟨rest, hrest, rfl⟩ := Except.map_eq_ok_iff.mp h
      rw [List.map_cons, ih hrest, List.map_cons]
      rfl

theorem map_key_updateFirst {p : Varying → Bool} {f : Varying → Varying}
    (hf : ∀ v, (f v).key = v.key) (vs : List Varying) :
    (updateFirst p f vs).map key = vs.map key := by
  induction vs with
  | nil => rfl
  | cons v vs ih =>
      rw [updateFirst]
      split
      · rw [List.map_cons, hf, List.map_cons]
      · rw [List.map_cons, ih, List.map_cons]

theorem map_key_map_placeColor (rank : List UInt32) (vs : List Varying) :
    (vs.map (placeColor rank)).map key = vs.map key := by
  rw [List.map_map]
  refine List.map_congr_left fun v _ => ?_
  simp only [Function.comp_apply, placeColor]
  split <;> rfl

theorem map_key_placeSampleMask (target : Nat) (count : UInt32) (vs : List Varying) :
    (placeSampleMask target count vs).2.map key = vs.map key := by
  unfold placeSampleMask
  split
  · exact map_key_updateFirst (fun v => key_setX v count) vs
  · split <;> rfl

theorem map_key_placeDepth (count : UInt32) (vs : List Varying) :
    (placeDepth count vs).map key = vs.map key :=
  map_key_updateFirst (fun v => key_setZ v count) vs

theorem assignFragmentOutputs_eq_ok_iff {colors : UInt32} {target : Nat} {vs vs' : List Varying} :
    assignFragmentOutputs colors target vs = .ok vs' ↔
      ∃ present, markTargets (.replicate maxColorOutputs false) vs = .ok present ∧
        vs' = placeDepth
          (placeSampleMask target colors (vs.map (placeColor (rankTargets 0 present)))).1
          (placeSampleMask target colors (vs.map (placeColor (rankTargets 0 present)))).2 := by
  unfold assignFragmentOutputs
  simp only [Except.bind_eq_ok_iff, pure, Except.pure, Except.ok.injEq, @eq_comm _ vs']

theorem map_key_of_assignFragmentOutputs {colors : UInt32} {target : Nat}
    {vs vs' : List Varying} (h : assignFragmentOutputs colors target vs = .ok vs') :
    vs'.map key = vs.map key := by
  obtain ⟨present, -, rfl⟩ := assignFragmentOutputs_eq_ok_iff.mp h
  rw [map_key_placeDepth, map_key_placeSampleMask, map_key_map_placeColor]

/-- An assignment that keeps the key of every varying keeps the list of keys. -/
theorem map_key_of_mapM {f : Varying → Except SlotError Varying}
    (hf : ∀ v v', f v = .ok v' → v'.key = v.key) {vs vs' : List Varying}
    (h : vs.mapM f = .ok vs') : vs'.map key = vs.map key := by
  have hall := Except.mapM_eq_ok_iff.mp h
  clear h
  induction hall with
  | nil => rfl
  | cons hv _ ih => rw [List.map_cons, hf _ _ hv, ih, List.map_cons]

theorem key_of_assignFixedInput {v v' : Varying} (h : v.assignFixedInput = .ok v') :
    v'.key = v.key := by
  obtain ⟨offset, -, rfl⟩ := assignFixedInput_eq_ok_iff.mp h
  rfl

theorem key_of_assignFixedOutput {v v' : Varying} (h : v.assignFixedOutput = .ok v') :
    v'.key = v.key := by
  rcases assignFixedOutput_eq_ok_iff.mp h with ⟨offset, -, rfl⟩ | ⟨-, rfl⟩ <;> rfl

end Varying

namespace Interface

@[simp] theorem reset_stage (i : Interface) : i.reset.stage = i.stage := rfl

theorem assignSlots_eq_ok_iff {i i' : Interface} :
    i.assignSlots = .ok i' ↔
      ∃ inputs outputs, i.reset.assignInputs = .ok inputs ∧ i.reset.assignOutputs = .ok outputs ∧
        i' = { i with inputs, outputs } := by
  unfold assignSlots
  simp only [Except.bind_eq_ok_iff]
  constructor
  · rintro ⟨inputs, hinputs, outputs, houtputs, h⟩
    cases h
    exact ⟨inputs, outputs, hinputs, houtputs, rfl⟩
  · rintro ⟨inputs, outputs, hinputs, houtputs, rfl⟩
    exact ⟨inputs, hinputs, outputs, houtputs, rfl⟩

theorem map_key_of_assignInputs {i : Interface} {inputs : List Varying}
    (h : i.assignInputs = .ok inputs) : inputs.map Varying.key = i.inputs.map Varying.key := by
  unfold assignInputs at h
  split at h
  · exact Varying.map_key_of_assignVertexInputs h
  · exact Varying.map_key_of_mapM (fun _ _ => Varying.key_of_assignFixedInput) h

theorem map_key_of_assignOutputs {i : Interface} {outputs : List Varying}
    (h : i.assignOutputs = .ok outputs) : outputs.map Varying.key = i.outputs.map Varying.key := by
  unfold assignOutputs at h
  split at h
  · exact Varying.map_key_of_assignFragmentOutputs h
  · exact Varying.map_key_of_mapM (fun _ _ => Varying.key_of_assignFixedOutput) h

/-- Slots are assigned to an interface without a change to anything that it declares. -/
theorem map_key_of_assignSlots {i i' : Interface} (h : i.assignSlots = .ok i') :
    i'.stage = i.stage ∧ i'.target = i.target ∧
      i'.inputs.map Varying.key = i.inputs.map Varying.key ∧
      i'.outputs.map Varying.key = i.outputs.map Varying.key := by
  obtain ⟨inputs, outputs, hinputs, houtputs, rfl⟩ := assignSlots_eq_ok_iff.mp h
  exact ⟨rfl, rfl, (map_key_of_assignInputs hinputs).trans (Varying.map_key_map_clear _),
    (map_key_of_assignOutputs houtputs).trans (Varying.map_key_map_clear _)⟩

/-! ### The fixed layout -/

theorem fixed_input {i i' : Interface} (hstage : i.stage ≠ .vertex) (h : i.assignSlots = .ok i')
    {v : Varying} (hv : v ∈ i'.inputs) :
    ∃ offset, v.semantic.inputAddress v.index = .ok offset ∧
      v.slots = .consecutive (.ofNat (offset / 4)) := by
  obtain ⟨inputs, outputs, hinputs, -, rfl⟩ := assignSlots_eq_ok_iff.mp h
  rw [assignInputs, reset_stage, if_neg hstage] at hinputs
  obtain ⟨w, -, hw⟩ := Except.exists_of_mem_mapM hinputs hv
  obtain ⟨offset, hoffset, rfl⟩ := Varying.assignFixedInput_eq_ok_iff.mp hw
  exact ⟨offset, hoffset, rfl⟩

/-- An output that goes nowhere has the slots that the reset left it, which are none. -/
theorem fixed_output {i i' : Interface} (hstage : i.stage ≠ .fragment)
    (h : i.assignSlots = .ok i') {v : Varying} (hv : v ∈ i'.outputs) :
    (∃ offset, v.semantic.outputAddress v.index = .ok (.offset offset) ∧
      v.slots = .consecutive (.ofNat (offset / 4))) ∨
    (v.semantic.outputAddress v.index = .ok .unsupported ∧ v.slots = .unassigned) := by
  obtain ⟨inputs, outputs, -, houtputs, rfl⟩ := assignSlots_eq_ok_iff.mp h
  rw [assignOutputs, reset_stage, if_neg hstage] at houtputs
  obtain ⟨w, hmem, hw⟩ := Except.exists_of_mem_mapM houtputs hv
  rcases Varying.assignFixedOutput_eq_ok_iff.mp hw with ⟨offset, hoffset, rfl⟩ | ⟨hnone, rfl⟩
  · exact .inl ⟨offset, hoffset, rfl⟩
  · obtain ⟨u, -, rfl⟩ := List.mem_map.mp hmem
    exact .inr ⟨hnone, rfl⟩

end Interface

end ShaderBackend
