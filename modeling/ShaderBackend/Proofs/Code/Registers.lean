import ShaderBackend.Proofs.Code.Schedule

/-!
Sequences of patches. A scheduling word holds, at each position, the value that was written there
last, or what it held before if none was; the bit that belongs to no field stays. So two sequences
do the same to a word if they write the same values last.
-/

namespace ShaderBackend

namespace Schedule

instance (position : Nat) : Decidable (IsPosition position) :=
  inferInstanceAs (Decidable (1 ≤ position ∧ position ≤ 3))

/-- A value that is written at a position. -/
structure Update where
  position : Nat
  value : UInt32
  isPosition : IsPosition position

/-- The word after a sequence of updates. -/
def patchAll (word : UInt64) (updates : List Update) : UInt64 :=
  updates.foldl (fun word u => patch word u.position u.value) word

/-- The value that is written last at a position. -/
def lastValue? (updates : List Update) (position : Nat) : Option UInt32 :=
  (updates.reverse.find? (·.position == position)).map Update.value

/-! ### Last values -/

theorem lastValue?_append (updates more : List Update) (position : Nat) :
    lastValue? (updates ++ more) position =
      (lastValue? more position).or (lastValue? updates position) := by
  rw [lastValue?, List.reverse_append, List.find?_append, Option.map_or]
  rfl

theorem lastValue?_cons (u : Update) (updates : List Update) (position : Nat) :
    lastValue? (u :: updates) position =
      (lastValue? updates position).or (if u.position = position then some u.value else none) := by
  rw [← List.singleton_append, lastValue?_append]
  by_cases h : u.position = position <;> simp [lastValue?, h]

/-- Neighbours that write at different positions can be exchanged. -/
theorem lastValue?_swap {u v : Update} (h : u.position ≠ v.position) (before after : List Update)
    (position : Nat) :
    lastValue? (before ++ u :: v :: after) position =
      lastValue? (before ++ v :: u :: after) position := by
  simp only [lastValue?_append, lastValue?_cons, Option.or_assoc]
  by_cases hu : u.position = position
  · have hv : v.position ≠ position := fun hv => h (hu.trans hv.symm)
    simp [hu, hv]
  · simp [hu]

/-- A value is not seen if another one is written at its position later. -/
theorem lastValue?_overridden {u v : Update} (h : u.position = v.position)
    (before between after : List Update) (position : Nat) :
    lastValue? (before ++ u :: (between ++ v :: after)) position =
      lastValue? (before ++ (between ++ v :: after)) position := by
  simp only [lastValue?_append, lastValue?_cons, Option.or_assoc]
  by_cases hv : v.position = position
  · simp [hv]
  · simp [h, hv]

/-! ### The word after a sequence -/

theorem toNat_field_patchAll {position : Nat} (h : IsPosition position) (word : UInt64)
    (updates : List Update) :
    (field (patchAll word updates) position).toNat =
      match lastValue? updates position with
      | some value => value.toNat % 2 ^ 21
      | none => (field word position).toNat := by
  induction updates generalizing word with
  | nil => rfl
  | cons u updates ih =>
      -- The first update is seen exactly if none of the others writes at the position.
      rw [patchAll, List.foldl_cons, ← patchAll, ih, lastValue?_cons]
      cases lastValue? updates position with
      | some value => rfl
      | none =>
          by_cases hu : u.position = position
          · subst hu
            simpa using toNat_field_patch h word u.value
          · simpa [hu] using congrArg UInt32.toNat
              (field_patch_of_ne u.isPosition h (Ne.symm hu) word u.value)

theorem topBit_patchAll (word : UInt64) (updates : List Update) :
    topBit (patchAll word updates) = topBit word := by
  induction updates generalizing word with
  | nil => rfl
  | cons u updates ih => rw [patchAll, List.foldl_cons, ← patchAll, ih, topBit_patch u.isPosition]

/-- Sequences with the same last values do the same to a word. -/
theorem patchAll_congr {updates updates' : List Update}
    (h : ∀ position, IsPosition position →
      lastValue? updates position = lastValue? updates' position) (word : UInt64) :
    patchAll word updates = patchAll word updates' := by
  refine eq_of_fields_eq (fun position hposition => ?_) ?_
  · apply UInt32.toNat_inj.mp
    rw [toNat_field_patchAll hposition, toNat_field_patchAll hposition, h position hposition]
  · rw [topBit_patchAll, topBit_patchAll]

/-- The fields of a word are registers of 21 bits: after any updates each holds the low bits of the
value that was written to it last, or what it held before, and the top bit is as it was. Neighbours
that write at different positions can be exchanged, and an update that a later one overrides can be
left out. -/
theorem fields_are_registers (word : UInt64) (updates : List Update) :
    (∀ position, IsPosition position →
      (field (patchAll word updates) position).toNat =
        match lastValue? updates position with
        | some value => value.toNat % 2 ^ 21
        | none => (field word position).toNat) ∧
    topBit (patchAll word updates) = topBit word ∧
    (∀ before after u v, u.position ≠ v.position →
      patchAll word (before ++ u :: v :: after) = patchAll word (before ++ v :: u :: after)) ∧
    (∀ before between after u v, u.position = v.position →
      patchAll word (before ++ u :: (between ++ v :: after)) =
        patchAll word (before ++ (between ++ v :: after))) := by
  refine ⟨fun position h => toNat_field_patchAll h word updates, topBit_patchAll word updates, ?_,
    ?_⟩
  · intro before after u v hne
    exact patchAll_congr (fun position _ => lastValue?_swap hne before after position) word
  · intro before between after u v heq
    exact patchAll_congr
      (fun position _ => lastValue?_overridden heq before between after position) word

/-- Values wider than a field, of which the last one overrides the first. -/
def wideUpdates : List Update :=
  [⟨2, 0xffffffff, by decide⟩, ⟨1, 0x12345678, by decide⟩, ⟨2, 0x80200005, by decide⟩]

theorem fields_are_registers_wideUpdates :
    let word := patchAll 0xaaaaaaaaaaaaaaaa wideUpdates
    IsPosition 1 ∧ (field word 1).toNat = 0x145678 ∧ (field word 2).toNat = 5 ∧
      (field word 3).toNat = 0xaaaaa ∧ topBit word = true ∧
      word = patchAll 0xaaaaaaaaaaaaaaaa (wideUpdates.drop 1) := by
  intro word
  obtain ⟨hfields, htop, -, hoverridden⟩ :=
    fields_are_registers 0xaaaaaaaaaaaaaaaa wideUpdates
  exact ⟨by decide, hfields 1 (by decide), hfields 2 (by decide), hfields 3 (by decide), htop,
    hoverridden [] [⟨1, 0x12345678, by decide⟩] [] ⟨2, 0xffffffff, by decide⟩
      ⟨2, 0x80200005, by decide⟩ rfl⟩

end Schedule

end ShaderBackend
