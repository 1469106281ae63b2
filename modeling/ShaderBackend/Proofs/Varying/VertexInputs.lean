import ShaderBackend.Proofs.Varying.SlotFormula

/-!
Which inputs of a vertex program share slots. The two values that the driver makes up never share
one, and packed inputs do not as long as their places end inside 32 bits. But packing goes on past
the slots of the values of the driver: the input with 39 packed ones before it gets both. So inputs
are apart as long as fewer than 40 of them are packed, or none is made up by the driver.
-/

namespace ShaderBackend

namespace Varying

/-! ### The rank of a packed input -/

/-- How many of the varyings are packed by a vertex program. -/
def countPacked (vs : List Varying) : Nat :=
  vs.countP (!·.isSystemValue)

variable {vs : List Varying} {v : Varying} {j k n : Nat}

theorem countPacked_take_succ (hv : vs[j]? = some v) (hpacked : v.isSystemValue = false) :
    countPacked (vs.take (j + 1)) = countPacked (vs.take j) + 1 := by
  rw [countPacked, countPacked, List.take_add_one, hv, List.countP_append]
  simp [hpacked]

theorem countPacked_take_mono (vs : List Varying) (h : j ≤ k) :
    countPacked (vs.take j) ≤ countPacked (vs.take k) :=
  (List.take_prefix_take_left h).sublist.countP_le

theorem countPacked_take_lt (hv : vs[j]? = some v) (hpacked : v.isSystemValue = false)
    (hjk : j < k) : countPacked (vs.take j) < countPacked (vs.take k) := by
  have hmono := countPacked_take_mono vs (Nat.succ_le_of_lt hjk)
  rw [countPacked_take_succ hv hpacked] at hmono
  exact hmono

theorem countPacked_take_lt_countPacked (hv : vs[j]? = some v) (hpacked : v.isSystemValue = false) :
    countPacked (vs.take j) < countPacked vs := by
  have hlt := countPacked_take_lt hv hpacked (List.getElem?_eq_some_iff.mp hv).1
  rwa [List.take_length] at hlt

/-- Two packed inputs with the same number of packed ones before them are one. -/
theorem eq_of_countPacked_eq {w : Varying} (hv : vs[j]? = some v) (hw : vs[k]? = some w)
    (hpacked : v.isSystemValue = false) (hpacked' : w.isSystemValue = false)
    (h : countPacked (vs.take j) = countPacked (vs.take k)) : j = k := by
  rcases Nat.lt_trichotomy j k with hlt | heq | hgt
  · have hcount := countPacked_take_lt hv hpacked hlt
    omega
  · exact heq
  · have hcount := countPacked_take_lt hw hpacked' hgt
    omega

/-- Every rank below the number of packed inputs is that of one. -/
theorem exists_of_lt_countPacked (h : n < countPacked vs) :
    ∃ j v, vs[j]? = some v ∧ v.isSystemValue = false ∧ countPacked (vs.take j) = n := by
  induction vs generalizing n with
  | nil => simp [countPacked] at h
  | cons u vs ih =>
      by_cases hu : u.isSystemValue = true
      · obtain ⟨j, v, hv, hpacked, hcount⟩ := ih (n := n) (by simpa [countPacked, hu] using h)
        exact ⟨j + 1, v, hv, hpacked, by simpa [countPacked, hu] using hcount⟩
      · cases n with
        | zero => exact ⟨0, u, rfl, by simpa using hu, rfl⟩
        | succ n =>
          obtain ⟨j, v, hv, hpacked, hcount⟩ := ih (n := n) (by simpa [countPacked, hu] using h)
          exact ⟨j + 1, v, hv, hpacked, by simpa [countPacked, hu] using hcount⟩

end Varying

namespace Interface

/-- The two values that the driver makes up have no slot in common. -/
def SystemValuesApart (i : Interface) : Prop :=
  ∀ v ∈ i.inputs, ∀ w ∈ i.inputs, v.semantic = .instanceId → w.semantic = .vertexId →
    v.slots.Apart w.slots

/-- No packed input has a slot of another input, and none of the two values that the driver makes up
has a slot of the other. -/
structure InputsApart (i : Interface) : Prop where
  packed : ∀ (j k : Nat) (v w : Varying), j ≠ k → i.inputs[j]? = some v → i.inputs[k]? = some w →
    v.isSystemValue = false → v.slots.Apart w.slots
  system : i.SystemValuesApart

/-- Which slots a packed input of a vertex program shares with another input. -/
structure VertexSharing (i : Interface) : Prop where
  packed : ∀ (j k : Nat) (v w : Varying), j ≠ k → i.inputs[j]? = some v → i.inputs[k]? = some w →
    v.isSystemValue = false → w.isSystemValue = false → v.slots.Apart w.slots
  mixed : ∀ (j : Nat) (v w : Varying), i.inputs[j]? = some v → w ∈ i.inputs →
    v.isSystemValue = false → w.isSystemValue = true →
    ∀ slot, (some slot ∈ v.slots.toList ∧ some slot ∈ w.slots.toList) ↔
      Varying.countPacked (i.inputs.take j) = 39 ∧
        (w.semantic = .instanceId ∧ slot = 0xbe ∨ w.semantic = .vertexId ∧ slot = 0xbf)

variable {i i' : Interface}

/-- The formula for vertex inputs, said of the interface that was assigned. -/
theorem slots_of_vertex_input (hstage : i.stage = .vertex) (h : i.assignSlots = .ok i') {k : Nat}
    {v : Varying} (hv : i'.inputs[k]? = some v) :
    v.slots = Varying.vertexSlots (.ofNat (Varying.countPacked (i'.inputs.take k))) .unassigned
      v.semantic := by
  have hkeys := (map_key_of_assignSlots h).2.2.1
  rw [Varying.countPacked, ← Varying.packedBefore_map_key, hkeys]
  rw [getElem?_inputs_of_assignSlots h, Option.map_eq_some_iff] at hv
  obtain ⟨u, -, rfl⟩ := hv
  simp [Varying.inputSlots, hstage, Varying.key]

theorem mem_slots_of_system_value (hstage : i.stage = .vertex) (h : i.assignSlots = .ok i')
    {w : Varying} (hw : w ∈ i'.inputs) (hsystem : w.isSystemValue = true) {slot : UInt32} :
    some slot ∈ w.slots.toList ↔
      (w.semantic = .instanceId ∧ slot = 0xbe) ∨ (w.semantic = .vertexId ∧ slot = 0xbf) := by
  obtain ⟨k, hk⟩ := List.getElem?_of_mem hw
  rw [slots_of_vertex_input hstage h hk]
  rcases Varying.isSystemValue_iff.mp hsystem with hrole | hrole
  · simp [hrole, Varying.vertexSlots, Slots.unassigned, Slots.toList]
  · simp [hrole, Varying.vertexSlots, Slots.unassigned, Slots.toList]

/-- The last packed input ends inside 32 bits, so that the others do. -/
theorem mem_slots_of_packed (hstage : i.stage = .vertex) (h : i.assignSlots = .ok i')
    (hcount : Varying.countPacked i'.inputs + 8 ≤ 2 ^ 28) {j : Nat} {v : Varying}
    (hv : i'.inputs[j]? = some v) (hpacked : v.isSystemValue = false) {slot : UInt32} :
    some slot ∈ v.slots.toList ↔
      0x20 + 4 * Varying.countPacked (i'.inputs.take j) ≤ slot.toNat ∧
        slot.toNat < 0x20 + 4 * Varying.countPacked (i'.inputs.take j) + 4 := by
  have hlt := Varying.countPacked_take_lt_countPacked hv hpacked
  rw [slots_of_vertex_input hstage h hv, Varying.vertexSlots_eq_consecutive hpacked (by omega),
    Varying.mem_consecutive (by simp only [UInt32.size]; omega)]

theorem systemValuesApart_of_assignSlots (hstage : i.stage = .vertex)
    (h : i.assignSlots = .ok i') : i'.SystemValuesApart := by
  intro v hv w hw hinstance hvertex slot hslot hslot'
  rw [mem_slots_of_system_value hstage h hv (Varying.isSystemValue_iff.mpr (.inl hinstance))]
    at hslot
  rw [mem_slots_of_system_value hstage h hw (Varying.isSystemValue_iff.mpr (.inr hvertex))]
    at hslot'
  simp only [hinstance, hvertex, true_and, reduceCtorEq, false_and, or_false, false_or]
    at hslot hslot'
  rw [hslot] at hslot'
  cases hslot'

theorem vertexSharing_of_assignSlots (hstage : i.stage = .vertex) (h : i.assignSlots = .ok i')
    (hcount : Varying.countPacked i'.inputs + 8 ≤ 2 ^ 28) : i'.VertexSharing where
  packed j k v w hjk hv hw hpacked hpacked' slot hslot hslot' := by
    rw [mem_slots_of_packed hstage h hcount hv hpacked] at hslot
    rw [mem_slots_of_packed hstage h hcount hw hpacked'] at hslot'
    exact hjk (Varying.eq_of_countPacked_eq hv hw hpacked hpacked' (by omega))
  mixed j v w hv hw hpacked hsystem slot := by
    rw [mem_slots_of_packed hstage h hcount hv hpacked,
      mem_slots_of_system_value hstage h hw hsystem]
    -- Slots come in fours from 0x20 on, and 0xbe and 0xbf are the last two of one such four.
    simp only [← UInt32.toNat_inj, UInt32.reduceToNat]
    rcases Varying.isSystemValue_iff.mp hsystem with hrole | hrole
    · simp only [hrole, true_and, reduceCtorEq, false_and, or_false]
      omega
    · simp only [hrole, true_and, reduceCtorEq, false_and, false_or]
      omega

/-- Inputs are apart unless there are so many packed ones that a made up value is met. -/
theorem VertexSharing.inputsApart_iff (h : i.VertexSharing) (hsystem : i.SystemValuesApart) :
    i.InputsApart ↔
      Varying.countPacked i.inputs < 40 ∨ ∀ w ∈ i.inputs, w.isSystemValue = false := by
  constructor
  · intro hapart
    by_contra hmany
    rw [not_or, Nat.not_lt] at hmany
    obtain ⟨hcount, hsome⟩ := hmany
    obtain ⟨w, hw, hsystem⟩ : ∃ w ∈ i.inputs, w.isSystemValue = true := by simpa using hsome
    obtain ⟨j, v, hv, hpacked, hrank⟩ := Varying.exists_of_lt_countPacked (n := 39) hcount
    obtain ⟨k, hk⟩ := List.getElem?_of_mem hw
    have hjk : j ≠ k := by
      rintro rfl
      obtain rfl : v = w := Option.some.inj (hv.symm.trans hk)
      rw [hpacked] at hsystem
      cases hsystem
    obtain ⟨slot, hslot⟩ : ∃ slot : UInt32,
        w.semantic = .instanceId ∧ slot = 0xbe ∨ w.semantic = .vertexId ∧ slot = 0xbf := by
      rcases Varying.isSystemValue_iff.mp hsystem with hrole | hrole
      · exact ⟨_, .inl ⟨hrole, rfl⟩⟩
      · exact ⟨_, .inr ⟨hrole, rfl⟩⟩
    obtain ⟨hv', hw'⟩ := (h.mixed j v w hv hw hpacked hsystem slot).mpr ⟨hrank, hslot⟩
    exact hapart.packed j k v w hjk hv hk hpacked slot hv' hw'
  · intro hfew
    refine ⟨fun j k v w hjk hv hw hpacked => ?_, hsystem⟩
    by_cases hsystem : w.isSystemValue = true
    · intro slot hslot hslot'
      have hw' := List.mem_of_getElem? hw
      obtain ⟨hrank, -⟩ := (h.mixed j v w hv hw' hpacked hsystem slot).mp ⟨hslot, hslot'⟩
      have hlt := Varying.countPacked_take_lt_countPacked hv hpacked
      rcases hfew with hcount | hnone
      · omega
      · rw [hnone w hw'] at hsystem
        cases hsystem
    · exact h.packed j k v w hjk hv hw hpacked (by simpa using hsystem)

end Interface

/-- For every accepted vertex program and every target, slots are assigned so that the two values
that the driver makes up are apart. As long as the places of the packed inputs end inside 32 bits,
these are apart from each other; one of them meets a value of the driver exactly if 39 packed ones
come before it, in one slot; so all inputs are apart exactly if fewer than 40 are packed or the
driver makes up none. -/
theorem FrontEnd.vertex_inputs_apart_iff (f : FrontEnd) (source : Text) (target : Nat) (p : Program)
    (h : (f.compile source .vertex).1 = .ok p) :
    ∃ i, (p.interface target).assignSlots = .ok i ∧ i.SystemValuesApart ∧
      (Varying.countPacked i.inputs + 8 ≤ 2 ^ 28 →
        i.VertexSharing ∧
          (i.InputsApart ↔
            Varying.countPacked i.inputs < 40 ∨ ∀ w ∈ i.inputs, w.isSystemValue = false)) := by
  rw [f.compile_fst, Program.ofSource_eq_ok] at h
  obtain ⟨hstage, -, -⟩ := Program.errors_eq_nil_iff.mp h.2
  obtain ⟨i, hi⟩ := Program.assignSlots_of_errors_eq_nil (Program.parse_wellFormed h.1) h.2 target
  have hsystem := Interface.systemValuesApart_of_assignSlots hstage hi
  refine ⟨i, hi, hsystem, fun hcount => ?_⟩
  have hsharing := Interface.vertexSharing_of_assignSlots hstage hi hcount
  exact ⟨hsharing, hsharing.inputsApart_iff hsystem⟩

/-- A vertex program with packed inputs up to a register, and the number of the instance in the
next one. -/
def packedAndInstance (last : Nat) : Program where
  stage := .vertex
  declarations := [
    { file := .input, first := 0, last, span := ⟨5, 18⟩ },
    { file := .input, first := last + 1, last := last + 1, binding := some (.role .instanceId 0)
      span := ⟨19, 41⟩ }]
  instructions := [{ opcode := "END".toList, operands := [], span := ⟨42, 48⟩ }]

theorem FrontEnd.vertex_inputs_apart_iff_packedAndInstance :
    (FrontEnd.compile {} "VERT\nDCL IN[0..38]\nDCL IN[39], INSTANCEID\n0: END" .vertex).1 =
      .ok (packedAndInstance 38) ∧
    ∃ i, ((packedAndInstance 38).interface 0x12b).assignSlots = .ok i ∧ i.InputsApart := by
  have h : (FrontEnd.compile {} "VERT\nDCL IN[0..38]\nDCL IN[39], INSTANCEID\n0: END" .vertex).1 =
      .ok (packedAndInstance 38) := rfl
  obtain ⟨i, hi, -, hcounted⟩ := FrontEnd.vertex_inputs_apart_iff _ _ 0x12b _ h
  cases hi
  exact ⟨h, _, rfl, (hcounted (by decide)).2.mpr (.inl (by decide))⟩

/-- With one more packed input the last of them meets the number of the instance. -/
theorem FrontEnd.vertex_inputs_meet_packedAndInstance :
    (FrontEnd.compile {} "VERT\nDCL IN[0..39]\nDCL IN[40], INSTANCEID\n0: END" .vertex).1 =
      .ok (packedAndInstance 39) ∧
    ∃ i, ((packedAndInstance 39).interface 0x12b).assignSlots = .ok i ∧ ¬ i.InputsApart := by
  refine ⟨rfl, _, rfl, fun hapart => ?_⟩
  exact hapart.packed 39 40 _ _ (by decide) rfl rfl rfl 0xbe (by decide) (by decide)

end ShaderBackend
