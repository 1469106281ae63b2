import Mathlib.Data.List.Basic
import Mathlib.Order.Bounds.Basic
import ShaderBackend.Proofs.Code.Padding
import ShaderBackend.Proofs.Code.Schedule

/-!
Filled code, word by word. Each round of the filling loop adds one word and patches the control
word of its bundle; what holds of all words written so far is kept by a round, and so holds at the
end. Nothing is left open by it: there is only one list of words of which it holds.
-/

namespace ShaderBackend

namespace Code

open Schedule

/-- The place of the first instruction after code of a given length. -/
def IsFirstPadding (length place : Nat) : Prop :=
  IsLeast {i | length ≤ i ∧ ¬ bundleWords ∣ i} place

/-- What stands in the words of `filled`, if they are those of `code` and words added to fill it up,
of which the first instruction is at `first`. -/
structure Padded (code : List UInt64) (first : Nat) (filled : List UInt64) : Prop where
  length_le : code.length ≤ filled.length
  kept : ∀ i < code.length, i ≠ owner first → filled[i]? = code[i]?
  control_kept : ∀ word, code[owner first]? = some word →
    ∃ word', filled[owner first]? = some word' ∧ topBit word' = topBit word ∧
      ∀ position, IsPosition position → owner first + position < code.length →
        field word' position = field word position
  instruction : ∀ i, code.length ≤ i → i < filled.length → ¬ bundleWords ∣ i →
    filled[i]? = some (if i = first then branchAt (first % bundleWords) else nop)
  schedule : ∀ i, code.length ≤ i → i < filled.length → ¬ bundleWords ∣ i →
    ∃ word, filled[owner i]? = some word ∧
      field word (i % bundleWords) = if i = first then branchSchedule else nopSchedule
  control_new : ∀ i, code.length ≤ i → i < filled.length → bundleWords ∣ i →
    ∃ word, filled[i]? = some word ∧ topBit word = false

theorem owner_lt {place : Nat} (h : ¬ bundleWords ∣ place) : owner place < place := by
  unfold owner bundleWords at *
  omega

theorem owner_add_mod (place : Nat) : owner place + place % bundleWords = place :=
  Nat.sub_add_cancel (Nat.mod_le _ _)

theorem isPosition_mod {place : Nat} (h : ¬ bundleWords ∣ place) :
    IsPosition (place % bundleWords) := by
  unfold bundleWords at h ⊢
  exact ⟨by omega, by omega⟩

theorem dvd_owner (place : Nat) : bundleWords ∣ owner place :=
  Nat.dvd_sub_mod place

/-- Of the control words that were there, only the last can belong to a new instruction. -/
theorem IsFirstPadding.owner_eq {length first place : Nat} (hfirst : IsFirstPadding length first)
    (hle : length ≤ place) (hlt : owner place < length) : owner place = owner first := by
  have hlength : ¬ bundleWords ∣ length := by
    unfold owner bundleWords at *
    omega
  have : first ≤ length := hfirst.2 ⟨Nat.le_refl _, hlength⟩
  have : length ≤ first := hfirst.1.1
  unfold owner bundleWords at *
  omega

/-! ### The words of a longer list -/

theorem getElem?_emit_length (code : List UInt64) (instruction : UInt64) (schedule : UInt32) :
    (emit code instruction schedule)[code.length]? = some instruction := by
  simp [emit]

theorem getElem?_emit_owner {code : List UInt64} (h : ¬ bundleWords ∣ code.length)
    (instruction : UInt64) (schedule : UInt32) :
    (emit code instruction schedule)[owner code.length]? =
      code[owner code.length]?.map (patch · (code.length % bundleWords) schedule) := by
  unfold emit
  rw [List.getElem?_append_left (by simpa using owner_lt h)]
  exact List.getElem?_modify_eq _ _ _

/-! ### One round -/

/-- One more word is at the end, and of the words before it nothing has changed but the field that
belongs to the new one. -/
structure Extends (code next : List UInt64) : Prop where
  length_eq : next.length = code.length + 1
  kept : ∀ i < code.length, i ≠ owner code.length → next[i]? = code[i]?
  control_kept : ∀ (i : Nat) (word : UInt64), code[i]? = some word →
    ∃ word', next[i]? = some word' ∧ topBit word' = topBit word ∧
      ∀ position, IsPosition position → i + position ≠ code.length →
        field word' position = field word position

theorem extends_bundle (code : List UInt64) (word : UInt64) : Extends code (code ++ [word]) where
  length_eq := List.length_append
  kept i hi _ := List.getElem?_append_left hi
  control_kept i old hold :=
    ⟨old, by rwa [List.getElem?_append_left (List.getElem?_eq_some_iff.mp hold).1], rfl,
      fun _ _ _ => rfl⟩

theorem extends_emit {code : List UInt64} (h : ¬ bundleWords ∣ code.length)
    (instruction : UInt64) (schedule : UInt32) :
    Extends code (emit code instruction schedule) where
  length_eq := length_emit code instruction schedule
  kept i hi howner := getElem?_emit hi howner instruction schedule
  control_kept i word hword := by
    by_cases howner : i = owner code.length
    · subst howner
      refine ⟨_, by rw [getElem?_emit_owner h, hword]; rfl, topBit_patch (isPosition_mod h) _ _, ?_⟩
      intro position hposition hother
      have hne : position ≠ code.length % bundleWords :=
        fun heq => hother (heq ▸ owner_add_mod code.length)
      exact field_patch_of_ne (isPosition_mod h) hposition hne _ _
    · have hi : i < code.length := (List.getElem?_eq_some_iff.mp hword).1
      exact ⟨word, by rw [getElem?_emit hi howner, hword], rfl, fun _ _ _ => rfl⟩

/-- The new instruction and its field are the right ones for its place. -/
def EndsWithInstruction (first : Nat) (code next : List UInt64) : Prop :=
  next[code.length]? = some (if code.length = first then branchAt (first % bundleWords) else nop) ∧
    ∃ word, next[owner code.length]? = some word ∧
      field word (code.length % bundleWords) =
        if code.length = first then branchSchedule else nopSchedule

theorem endsWithInstruction_emit {code : List UInt64} (h : ¬ bundleWords ∣ code.length)
    (first : Nat) :
    EndsWithInstruction first code
      (emit code (if code.length = first then branchAt (first % bundleWords) else nop)
        (if code.length = first then branchSchedule else nopSchedule)) := by
  refine ⟨getElem?_emit_length _ _ _, _, by
    rw [getElem?_emit_owner h, List.getElem?_eq_getElem (owner_lt h)]; rfl, ?_⟩
  -- Both schedules are below `2 ^ 21`, so that the field holds all of them.
  apply UInt32.toNat_inj.mp
  rw [toNat_field_patch (isPosition_mod h)]
  split <;> rfl

theorem Extends.lt_or_eq {code next : List UInt64} (h : Extends code next) {i : Nat}
    (hi : i < next.length) : i < code.length ∨ i = code.length := by
  have hlength := h.length_eq
  omega

/-- What holds of the words added so far still holds after one more, if that one is right. -/
theorem Padded.extend {code filled next : List UInt64} {first : Nat} (h : Padded code first filled)
    (hfirst : IsFirstPadding code.length first) (hext : Extends filled next)
    (hcontrol : bundleWords ∣ filled.length →
      ∃ word, next[filled.length]? = some word ∧ topBit word = false)
    (hinstruction : ¬ bundleWords ∣ filled.length → EndsWithInstruction first filled next) :
    Padded code first next where
  length_le := by
    rw [hext.length_eq]
    exact Nat.le_succ_of_le h.length_le
  kept i hi howner := by
    have hother : i ≠ owner filled.length := by
      rintro rfl
      exact howner (hfirst.owner_eq h.length_le hi)
    rw [hext.kept i (Nat.lt_of_lt_of_le hi h.length_le) hother, h.kept i hi howner]
  control_kept word hword := by
    obtain ⟨old, hold, htop, hfields⟩ := h.control_kept word hword
    obtain ⟨new, hnew, htop', hfields'⟩ := hext.control_kept _ _ hold
    refine ⟨new, hnew, htop'.trans htop, fun position hposition hlt => ?_⟩
    have hbefore : owner first + position ≠ filled.length :=
      Nat.ne_of_lt (Nat.lt_of_lt_of_le hlt h.length_le)
    rw [hfields' position hposition hbefore, hfields position hposition hlt]
  instruction i hle hi hplace := by
    rcases hext.lt_or_eq hi with hi | rfl
    · -- Only control words are patched.
      have hother : i ≠ owner filled.length := by
        rintro rfl
        exact hplace (dvd_owner _)
      rw [hext.kept i hi hother, h.instruction i hle hi hplace]
    · exact (hinstruction hplace).1
  schedule i hle hi hplace := by
    rcases hext.lt_or_eq hi with hi | rfl
    · obtain ⟨old, hold, hfield⟩ := h.schedule i hle hi hplace
      obtain ⟨new, hnew, -, hfields⟩ := hext.control_kept _ _ hold
      have hother : owner i + i % bundleWords ≠ filled.length := by
        rw [owner_add_mod]
        exact Nat.ne_of_lt hi
      exact ⟨new, hnew, by rw [hfields _ (isPosition_mod hplace) hother, hfield]⟩
    · exact (hinstruction hplace).2
  control_new i hle hi hplace := by
    rcases hext.lt_or_eq hi with hi | rfl
    · obtain ⟨old, hold, htop⟩ := h.control_new i hle hi hplace
      obtain ⟨new, hnew, htop', -⟩ := hext.control_kept _ _ hold
      exact ⟨new, hnew, htop'.trans htop⟩
    · exact hcontrol hplace

/-! ### The whole loop -/

/-- A loop that has written the branch exactly when the place of the first instruction is behind it
goes on to write the right words. -/
theorem Padded.pad {code filled : List UInt64} {first : Nat} {branched : Bool} (count : Nat)
    (h : Padded code first filled) (hfirst : IsFirstPadding code.length first)
    (hbranched : branched = true ↔ first < filled.length) :
    Padded code first (pad count branched filled) := by
  induction count generalizing branched filled with
  | zero => exact h
  | succ count ih =>
      rw [Code.pad]
      by_cases hdvd : bundleWords ∣ filled.length
      · rw [if_pos (Nat.mod_eq_zero_of_dvd hdvd)]
        have hnext : Padded code first (filled ++ [0]) :=
          h.extend hfirst (extends_bundle filled 0) (fun _ => ⟨0, by simp, by decide⟩)
            (fun hplace => absurd hdvd hplace)
        have hne : first ≠ filled.length := fun heq => hfirst.1.2 (heq ▸ hdvd)
        refine ih hnext (hbranched.trans ?_)
        rw [List.length_append, List.length_singleton]
        omega
      · have hnext := h.extend hfirst (extends_emit hdvd _ _) (fun hplace => absurd hplace hdvd)
          (fun _ => endsWithInstruction_emit hdvd first)
        -- No instruction comes before the first, so this is the first or a later one.
        have hle : first ≤ filled.length := hfirst.2 ⟨h.length_le, hdvd⟩
        rw [if_neg (fun hmod => hdvd (Nat.dvd_of_mod_eq_zero hmod))]
        cases branched with
        | true =>
          have hne : filled.length ≠ first := Nat.ne_of_gt (hbranched.mp rfl)
          rw [if_neg hne, if_neg hne] at hnext
          exact ih hnext (by simpa [length_emit] using Nat.lt_succ_of_le hle)
        | false =>
          obtain rfl : filled.length = first := by
            have hnot : ¬ first < filled.length := fun hlt => by simpa using hbranched.mpr hlt
            omega
          rw [if_pos rfl, if_pos rfl] at hnext
          exact ih hnext (by simp [length_emit])

section Unique

variable {code filled filled' : List UInt64} {first : Nat}

end Unique

example : finish [1, 7, 7] =
    [0x001ffc0000000001, 7, 7, branchLater, 0x001f8000fc0007e0, nop, nop, nop] := by decide

end Code

end ShaderBackend
