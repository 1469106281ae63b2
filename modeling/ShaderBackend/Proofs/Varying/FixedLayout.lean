import ShaderBackend.Proofs.Program.Placement
import ShaderBackend.Proofs.Varying.Assignment

/-!
The fixed layout of the register file. A role is written where it is read, so that a stage finds
what the stage before it wrote; and the places of different roles are apart as long as no row runs
past the room that it has before the next place.
-/

namespace ShaderBackend

/-! ### Two stages -/

namespace Interface

/-- What one stage writes is where the next one reads. An output and an input of the same role and
index have the same four slots, because a role is written where it is read; and its offset is so
small a number that nothing computed from it leaves 32 bits. -/
theorem stages_link :
    (∀ producer consumer producer' consumer' : Interface,
      producer.stage ≠ .fragment → consumer.stage ≠ .vertex →
      producer.assignSlots = .ok producer' → consumer.assignSlots = .ok consumer' →
      ∀ o ∈ producer'.outputs, ∀ i ∈ consumer'.inputs,
        o.semantic = i.semantic → o.index = i.index →
        o.slots = i.slots ∧ ∀ slot ∈ i.slots.toList, slot.isSome = true) ∧
    (∀ (s : Semantic) (index offset : Nat),
      s.outputAddress index = .ok (.offset offset) → s.inputAddress index = .ok offset) ∧
    (∀ (s : Semantic) (index offset : Nat), s.inputAddress index = .ok offset →
      s ∉ [.pointCoord, .tessCoord, .instanceId, .vertexId] →
      s.outputAddress index = .ok (.offset offset)) ∧
    (∀ (s : Semantic) (index offset : Nat),
      s.inputAddress index = .ok offset ∨ s.outputAddress index = .ok (.offset offset) →
      offset % 4 = 0 ∧ offset ≤ 0x300 + 255 * 0x10 ∧
        ∃ p, s.placement? = some p ∧ p.Holds index offset ∧ p.FitsWord index) := by
  refine ⟨?_, ?_, ?_, ?_⟩
  · intro producer consumer producer' consumer' hproducer hconsumer hassigned hassigned' o ho i hi
      hrole hindex
    obtain ⟨offset, hoffset, hslots⟩ := fixed_input hconsumer hassigned' hi
    rw [← hrole, ← hindex] at hoffset
    rcases fixed_output hproducer hassigned ho with ⟨offset', hoffset', hslots'⟩ | ⟨hnone, -⟩
    · rw [(Semantic.outputAddress_eq_offset_iff.mp hoffset').2, Except.ok.injEq] at hoffset
      rw [hslots, hslots', hoffset]
      exact ⟨rfl, by simp [Slots.consecutive, Slots.toList]⟩
    · -- An edge flag has no slots to be written to, but neither can it be read.
      rw [Semantic.outputAddress_eq_unsupported_iff.mp hnone] at hoffset
      cases hoffset
  · exact fun s index offset h => (Semantic.outputAddress_eq_offset_iff.mp h).2
  · intro s index offset h hwritten
    refine Semantic.outputAddress_eq_offset_iff.mpr ⟨?_, h⟩
    cases s <;> simp [Semantic.isReadOnly] at hwritten ⊢
  · rintro s index offset (h | h)
    · exact Semantic.inputAddress_spec h
    · exact Semantic.inputAddress_spec (Semantic.outputAddress_eq_offset_iff.mp h).2

/-- The outputs of a vertex stage, the last of which goes nowhere. -/
def vertexSide : Interface where
  stage := .vertex
  target := 0x12b
  outputs := [{ semantic := .position, index := 0 }, { semantic := .generic, index := 3 },
    { semantic := .edgeFlag, index := 0 }]

/-- The inputs of a fragment stage after it. -/
def fragmentSide : Interface where
  stage := .fragment
  target := 0xc0
  inputs := [{ semantic := .generic, index := 3, mask := 0x3 },
    { semantic := .pointCoord, index := 0 }]

theorem stages_link_generic :
    ∃ producer consumer, vertexSide.assignSlots = .ok producer ∧
      fragmentSide.assignSlots = .ok consumer ∧
      ∃ o ∈ producer.outputs, ∃ i ∈ consumer.inputs, o.semantic = i.semantic ∧
        o.index = i.index ∧ o.slots = i.slots ∧ i.slots = .consecutive 0x2c := by
  let o : Varying := { semantic := .generic, index := 3, slots := .consecutive 0x2c }
  let i : Varying := { o with mask := 0x3 }
  have hlinked := stages_link.1 vertexSide fragmentSide _ _ (by decide) (by decide) rfl rfl
    o (by decide) i (by decide) rfl rfl
  exact ⟨_, _, rfl, rfl, o, by decide, i, by decide, rfl, rfl, hlinked.1, rfl⟩

end Interface

/-! ### Room -/

namespace Semantic

/-- The byte offset of a role and index, looked up from one side. -/
def byteOffset? (direction : Direction) (s : Semantic) (index : Nat) : Option Nat :=
  match direction with
  | .input => (s.inputAddress index).toOption
  | .output =>
    match s.outputAddress index with
    | .ok (.offset offset) => some offset
    | _ => none

/-- Whatever the side, it is the offset from which the role is read. -/
theorem inputAddress_of_byteOffset? {direction : Direction} {s : Semantic} {index offset : Nat}
    (h : s.byteOffset? direction index = some offset) : s.inputAddress index = .ok offset := by
  cases direction with
  | input =>
      simp only [byteOffset?] at h
      cases hread : s.inputAddress index with
      | error reason => simp [hread, Except.toOption] at h
      | ok place => simpa [hread, Except.toOption] using h
  | output =>
      simp only [byteOffset?] at h
      split at h
      · rename_i place haddress
        cases h
        exact (outputAddress_eq_offset_iff.mp haddress).2
      · cases h

/-- The roles with a row of places. -/
def repeated : List Semantic :=
  [tessOuter, tessInner, patch, generic, color, backColor, clipDistance, texcoord]

/-- How many places of a row come before the place of the next role. The last row has all the room
that it can use, and a role with a single place needs none. -/
def room? : Semantic → Option Nat
  | tessOuter | tessInner | patch => some 4
  | generic => some 31
  | color | backColor | clipDistance => some 2
  | _ => none

def InRoom (s : Semantic) (index : Nat) : Prop :=
  ∀ n ∈ s.room?, index < n

/-- The bytes between which the first slots of a role lie, as long as it keeps to its room. -/
def territory? (s : Semantic) : Option (Nat × Nat) :=
  s.placement?.map fun
    | .single offset => (offset, offset + 4)
    | .row base stride => (base, base + s.room?.getD (maxSemanticIndex + 1) * stride)

theorem row_of_mem_repeated {s : Semantic} (h : s ∈ repeated) :
    ∃ base stride, s.placement? = some (.row base stride) := by
  cases s <;> simp [repeated] at h <;> exact ⟨_, _, rfl⟩

theorem mem_territory {s : Semantic} {index offset : Nat} (h : s.inputAddress index = .ok offset)
    (hroom : s.InRoom index) :
    ∃ territory, s.territory? = some territory ∧ territory.1 ≤ offset ∧ offset < territory.2 := by
  obtain ⟨p, hplace, hp⟩ := inputAddress_eq_ok_iff.mp h
  cases p with
  | single place =>
      obtain rfl : offset = place := hp
      exact ⟨(offset, offset + 4), by rw [territory?, hplace]; rfl, Nat.le_refl _, by simp⟩
  | row base stride =>
      obtain ⟨hindex, rfl⟩ := hp
      obtain ⟨-, -, -, hpos, -⟩ := aligned_placement hplace
      have hlt : index < s.room?.getD (maxSemanticIndex + 1) := by
        cases hs : s.room? with
        | none => exact Nat.lt_succ_of_le hindex
        | some n => exact hroom n hs
      refine ⟨_, by rw [territory?, hplace]; rfl, Nat.le_add_right _ _, ?_⟩
      exact Nat.add_lt_add_left (Nat.mul_lt_mul_of_pos_right hlt hpos) base

theorem territories_apart :
    ∀ s ∈ names.map Prod.snd, ∀ t ∈ names.map Prod.snd, s ≠ t →
      ∀ a ∈ s.territory?, ∀ b ∈ t.territory?, a.2 ≤ b.1 ∨ b.2 ≤ a.1 := by
  decide

theorem mem_names_of_territory {s : Semantic} {territory : Nat × Nat}
    (h : s.territory? = some territory) : s ∈ names.map Prod.snd := by
  cases s <;> simp [names, territory?, placement?] at h ⊢

/-- Roles that keep to their rooms do not meet. -/
theorem inputAddress_ne_of_inRoom {s t : Semantic} (hne : s ≠ t) {i j offset offset' : Nat}
    (h : s.inputAddress i = .ok offset) (h' : t.inputAddress j = .ok offset') (hroom : s.InRoom i)
    (hroom' : t.InRoom j) : offset ≠ offset' := by
  obtain ⟨a, ha, hlower, hupper⟩ := mem_territory h hroom
  obtain ⟨b, hb, hlower', hupper'⟩ := mem_territory h' hroom'
  have hapart := territories_apart s (mem_names_of_territory ha) t (mem_names_of_territory hb) hne
    a ha b hb
  omega

/-- Different places of one row do not meet. -/
theorem index_eq_of_inputAddress_eq {s : Semantic} (hs : s ∈ repeated) {i j offset : Nat}
    (h : s.inputAddress i = .ok offset) (h' : s.inputAddress j = .ok offset) : i = j := by
  obtain ⟨base, stride, hrow⟩ := row_of_mem_repeated hs
  obtain ⟨-, -, -, hpos, -⟩ := aligned_placement hrow
  simp only [inputAddress_eq_ok_iff, hrow, Option.some.injEq, exists_eq_left', Placement.Holds]
    at h h'
  obtain ⟨-, rfl⟩ := h
  exact Nat.eq_of_mul_eq_mul_right hpos (Nat.add_left_cancel h'.2)

/-- The first index past the room of a row has the place of another role. -/
theorem meets_past_room {s : Semantic} {n : Nat} (h : s.room? = some n) :
    ∃ t j offset, t ≠ s ∧ s.inputAddress n = .ok offset ∧ t.inputAddress j = .ok offset := by
  cases s with
  | tessOuter => cases h; exact ⟨.tessInner, 0, 0x010, by decide, rfl, rfl⟩
  | tessInner => cases h; exact ⟨.patch, 0, 0x020, by decide, rfl, rfl⟩
  | patch => cases h; exact ⟨.primitiveId, 0, 0x060, by decide, rfl, rfl⟩
  | generic => cases h; exact ⟨.clipVertex, 0, 0x270, by decide, rfl, rfl⟩
  | color => cases h; exact ⟨.backColor, 0, 0x2a0, by decide, rfl, rfl⟩
  | backColor => cases h; exact ⟨.clipDistance, 0, 0x2c0, by decide, rfl, rfl⟩
  | clipDistance => cases h; exact ⟨.pointCoord, 0, 0x2e0, by decide, rfl, rfl⟩
  | _ => cases h

end Semantic

namespace Varying

/-- The first slot of a varying is that of its place in the layout. -/
def InPlace (direction : Direction) (v : Varying) : Prop :=
  ∃ offset, v.semantic.byteOffset? direction v.index = some offset ∧
    v.slots.x = some (.ofNat (offset / 4))

/-- When the varyings of a list that have slots share the first of them. -/
structure Apart (direction : Direction) (vs : List Varying) : Prop where
  meet_iff : ∀ v ∈ vs, ∀ w ∈ vs, v.isAssigned = true → w.isAssigned = true →
    (v.slots.x = w.slots.x ↔
      v.semantic.byteOffset? direction v.index = w.semantic.byteOffset? direction w.index)
  of_index_ne : ∀ v ∈ vs, ∀ w ∈ vs, v.isAssigned = true → w.isAssigned = true →
    v.semantic = w.semantic → v.semantic ∈ Semantic.repeated → v.index ≠ w.index →
    v.slots.x ≠ w.slots.x
  of_role_ne : ∀ v ∈ vs, ∀ w ∈ vs, v.isAssigned = true → w.isAssigned = true →
    v.semantic ≠ w.semantic → v.semantic.InRoom v.index → w.semantic.InRoom w.index →
    v.slots.x ≠ w.slots.x

/-- Offsets are whole words and small numbers, so that two places with one first slot are one
place. -/
theorem InPlace.meet_iff {direction : Direction} {v w : Varying} (hv : v.InPlace direction)
    (hw : w.InPlace direction) :
    v.slots.x = w.slots.x ↔
      v.semantic.byteOffset? direction v.index = w.semantic.byteOffset? direction w.index := by
  obtain ⟨a, ha, hx⟩ := hv
  obtain ⟨b, hb, hx'⟩ := hw
  obtain ⟨hmod, hle, -⟩ := Semantic.inputAddress_spec (Semantic.inputAddress_of_byteOffset? ha)
  obtain ⟨hmod', hle', -⟩ := Semantic.inputAddress_spec (Semantic.inputAddress_of_byteOffset? hb)
  rw [hx, hx', ha, hb, Option.some.injEq, Option.some.injEq, ← UInt32.toNat_inj,
    UInt32.toNat_ofNat', UInt32.toNat_ofNat']
  omega

theorem apart_of_inPlace {direction : Direction} {vs : List Varying}
    (h : ∀ v ∈ vs, v.isAssigned = true → v.InPlace direction) : Apart direction vs where
  meet_iff v hv w hw hassigned hassigned' := (h v hv hassigned).meet_iff (h w hw hassigned')
  of_index_ne v hv w hw hassigned hassigned' hrole hrow hne hmeet := by
    rw [(h v hv hassigned).meet_iff (h w hw hassigned')] at hmeet
    obtain ⟨offset, hoffset, -⟩ := h v hv hassigned
    rw [hoffset, ← hrole] at hmeet
    exact hne (Semantic.index_eq_of_inputAddress_eq hrow
      (Semantic.inputAddress_of_byteOffset? hoffset)
      (Semantic.inputAddress_of_byteOffset? hmeet.symm))
  of_role_ne v hv w hw hassigned hassigned' hrole hroom hroom' hmeet := by
    rw [(h v hv hassigned).meet_iff (h w hw hassigned')] at hmeet
    obtain ⟨offset, hoffset, -⟩ := h v hv hassigned
    rw [hoffset] at hmeet
    exact Semantic.inputAddress_ne_of_inRoom hrole (Semantic.inputAddress_of_byteOffset? hoffset)
      (Semantic.inputAddress_of_byteOffset? hmeet.symm) hroom hroom' rfl

end Varying

namespace Interface

theorem inPlace_input {i i' : Interface} (hstage : i.stage ≠ .vertex) (h : i.assignSlots = .ok i')
    {v : Varying} (hv : v ∈ i'.inputs) : v.InPlace .input := by
  obtain ⟨offset, hoffset, hslots⟩ := fixed_input hstage h hv
  exact ⟨offset, by rw [Semantic.byteOffset?, hoffset]; rfl, by rw [hslots]; rfl⟩

theorem inPlace_output {i i' : Interface} (hstage : i.stage ≠ .fragment)
    (h : i.assignSlots = .ok i') {v : Varying} (hv : v ∈ i'.outputs)
    (hassigned : v.isAssigned = true) : v.InPlace .output := by
  rcases fixed_output hstage h hv with ⟨offset, hoffset, hslots⟩ | ⟨-, hslots⟩
  · exact ⟨offset, by simp only [Semantic.byteOffset?, hoffset], by rw [hslots]; rfl⟩
  · rw [Varying.isAssigned, hslots] at hassigned
    cases hassigned

end Interface

/-- In a program that was accepted, two varyings with slots of the fixed layout share their first
slot exactly where the layout puts them in one place. Different indices of one row never meet, and
different roles do not while each keeps to its room; no row has more room than that. -/
theorem FrontEnd.fixed_slots_apart :
    (∀ (f : FrontEnd) (source : Text) (stage : Stage) (target : Nat) (p : Program),
      (f.compile source stage).1 = .ok p →
      ∃ i, (p.interface target).assignSlots = .ok i ∧
        (p.stage ≠ .vertex → Varying.Apart .input i.inputs) ∧
        (p.stage ≠ .fragment → Varying.Apart .output i.outputs)) ∧
    (∀ (s : Semantic) (n : Nat), s.room? = some n →
      ∃ t j offset, t ≠ s ∧ s.inputAddress n = .ok offset ∧ t.inputAddress j = .ok offset) := by
  refine ⟨fun f source stage target p h => ?_, fun s n hn => s.meets_past_room hn⟩
  rw [f.compile_fst, Program.ofSource_eq_ok] at h
  obtain ⟨i, hi⟩ := Program.assignSlots_of_errors_eq_nil (Program.parse_wellFormed h.1) h.2 target
  refine ⟨i, hi, fun hstage => ?_, fun hstage => ?_⟩
  · exact Varying.apart_of_inPlace fun v hv _ => Interface.inPlace_input hstage hi hv
  · exact Varying.apart_of_inPlace fun v hv => Interface.inPlace_output hstage hi hv

/-- A fragment program that reads a generic varying and the first color. -/
def genericAndColor (index : Nat) : Program where
  stage := .fragment
  declarations := [
    { file := .input, first := 0, last := 0, binding := some (.role .generic index)
      span := ⟨5, 27⟩ },
    { file := .input, first := 1, last := 1, binding := some (.role .color 0), span := ⟨28, 44⟩ }]
  instructions := [{ opcode := "END".toList, operands := [], span := ⟨45, 51⟩ }]

theorem FrontEnd.fixed_slots_apart_genericAndColor :
    (FrontEnd.compile {} "FRAG\nDCL IN[0], GENERIC[30]\nDCL IN[1], COLOR\n0: END" .fragment).1 =
      .ok (genericAndColor 30) ∧
    ∃ i, ((genericAndColor 30).interface 0x12b).assignSlots = .ok i ∧
      ∃ v ∈ i.inputs, ∃ w ∈ i.inputs, v.isAssigned = true ∧ w.isAssigned = true ∧
        v.semantic ≠ w.semantic ∧ v.slots.x ≠ w.slots.x := by
  let v : Varying := { semantic := .generic, index := 30, slots := .consecutive 0x98 }
  let w : Varying := { semantic := .color, index := 0, slots := .consecutive 0xa0 }
  have h : (FrontEnd.compile {} "FRAG\nDCL IN[0], GENERIC[30]\nDCL IN[1], COLOR\n0: END"
      .fragment).1 = .ok (genericAndColor 30) := rfl
  obtain ⟨i, hi, hinputs, -⟩ := FrontEnd.fixed_slots_apart.1 _ _ _ 0x12b _ h
  cases hi
  refine ⟨h, _, rfl, v, by decide, w, by decide, rfl, rfl, by decide, ?_⟩
  exact (hinputs (by decide)).of_role_ne v (by decide) w (by decide) rfl rfl (by decide)
    (by simp [Semantic.InRoom, v, Semantic.room?]) (by simp [Semantic.InRoom, w, Semantic.room?])

/-- Past its room a generic varying is put where the first color is. -/
theorem FrontEnd.fixed_slots_meet_genericAndColor :
    (FrontEnd.compile {} "FRAG\nDCL IN[0], GENERIC[32]\nDCL IN[1], COLOR\n0: END" .fragment).1 =
      .ok (genericAndColor 32) ∧
    (genericAndColor 32).stage ≠ .vertex ∧
    ∃ i, ((genericAndColor 32).interface 0x12b).assignSlots = .ok i ∧
      ∃ v ∈ i.inputs, ∃ w ∈ i.inputs, v.isAssigned = true ∧ w.isAssigned = true ∧
        v.semantic ≠ w.semantic ∧ v.slots.x = w.slots.x := by
  let v : Varying := { semantic := .generic, index := 32, slots := .consecutive 0xa0 }
  let w : Varying := { semantic := .color, index := 0, slots := .consecutive 0xa0 }
  exact ⟨rfl, by decide, _, rfl, v, by decide, w, by decide, rfl, rfl, by decide, rfl⟩

end ShaderBackend
