import ShaderBackend.Proofs.Program.WellFormed
import ShaderBackend.Proofs.Varying.Assignment

/-!
The check of a program's declarations against the assignment of its slots. Both come down to one
condition on a role and an index. The assignment meets it at every register of a declaration, the
check only at the last one; the condition is downward closed in the index, and a declaration that
was read has a last register, so the two agree.
-/

namespace ShaderBackend

/-- A register of a varying file, with its role and index, can be given slots. -/
def Placeable (stage : Stage) (file : RegisterFile) (s : Semantic) (index : Nat) : Prop :=
  match file with
  | .input => stage = .vertex ∨ ∃ offset, s.inputAddress index = .ok offset
  | .output =>
    if stage = .fragment then ¬ (s = .color ∧ maxColorOutputs ≤ index)
    else ∃ address, s.outputAddress index = .ok address
  | _ => True

theorem Placeable.of_le {stage : Stage} {file : RegisterFile} {s : Semantic} {i j : Nat}
    (hij : i ≤ j) (h : Placeable stage file s j) : Placeable stage file s i := by
  unfold Placeable at h ⊢
  split
  · exact h.imp_right (Semantic.inputAddress_ok_of_le hij)
  · dsimp only at h
    split
    · rename_i hstage
      rw [if_pos hstage] at h
      exact fun hcolor => h ⟨hcolor.1, hcolor.2.trans hij⟩
    · rename_i hstage
      rw [if_neg hstage] at h
      exact Semantic.outputAddress_ok_of_le hij h
  · trivial

/-! ### The assignment -/

namespace Varying

theorem assignFixedInput_ok_iff (v : Varying) :
    (∃ v', v.assignFixedInput = .ok v') ↔
      ∃ offset, v.semantic.inputAddress v.index = .ok offset := by
  simp only [assignFixedInput_eq_ok_iff]
  constructor
  · rintro ⟨v', offset, hoffset, -⟩
    exact ⟨offset, hoffset⟩
  · rintro ⟨offset, hoffset⟩
    exact ⟨_, offset, hoffset, rfl⟩

theorem assignFixedOutput_ok_iff (v : Varying) :
    (∃ v', v.assignFixedOutput = .ok v') ↔
      ∃ address, v.semantic.outputAddress v.index = .ok address := by
  unfold assignFixedOutput
  cases v.semantic.outputAddress v.index with
  | error reason => simp
  | ok address => cases address <;> simp

theorem markTargets_ok_iff (present : List Bool) (vs : List Varying) :
    (∃ present', markTargets present vs = .ok present') ↔
      ∀ v ∈ vs, ¬ (v.semantic = .color ∧ maxColorOutputs ≤ v.index) := by
  induction vs generalizing present with
  | nil => simp [markTargets]
  | cons v vs ih =>
      rw [markTargets, List.forall_mem_cons]
      by_cases hcolor : v.semantic = .color
      · by_cases hindex : v.index < maxColorOutputs
        · simp [isColor, hcolor, hindex, ih]
        · simp [isColor, hcolor, hindex, Nat.le_of_not_lt hindex]
      · simp [isColor, hcolor, ih]

theorem assignFragmentOutputs_ok_iff (colors : UInt32) (target : Nat) (outputs : List Varying) :
    (∃ vs, assignFragmentOutputs colors target outputs = .ok vs) ↔
      ∀ v ∈ outputs, ¬ (v.semantic = .color ∧ maxColorOutputs ≤ v.index) := by
  simp only [assignFragmentOutputs_eq_ok_iff]
  rw [← markTargets_ok_iff (.replicate maxColorOutputs false)]
  constructor
  · rintro ⟨_, present, hpresent, -⟩
    exact ⟨present, hpresent⟩
  · rintro ⟨present, hpresent⟩
    exact ⟨_, present, hpresent, rfl⟩

end Varying

namespace Interface

theorem assignInputs_ok_iff (i : Interface) :
    (∃ vs, i.assignInputs = .ok vs) ↔
      ∀ v ∈ i.inputs, Placeable i.stage .input v.semantic v.index := by
  unfold assignInputs Placeable
  split
  · rename_i hstage
    exact ⟨fun _ _ _ => .inl hstage, fun _ => Varying.assignVertexInputs_ok 0 i.inputs⟩
  · rename_i hstage
    rw [Except.exists_mapM_eq_ok_iff]
    simp only [Varying.assignFixedInput_ok_iff, hstage, false_or]

theorem assignOutputs_ok_iff (i : Interface) :
    (∃ vs, i.assignOutputs = .ok vs) ↔
      ∀ v ∈ i.outputs, Placeable i.stage .output v.semantic v.index := by
  unfold assignOutputs Placeable
  split
  · exact Varying.assignFragmentOutputs_ok_iff _ i.target i.outputs
  · rw [Except.exists_mapM_eq_ok_iff]
    simp only [Varying.assignFixedOutput_ok_iff]

/-- The reset does not change what can be placed. -/
theorem assignSlots_ok_iff (i : Interface) :
    (∃ i', i.assignSlots = .ok i') ↔
      (∀ v ∈ i.inputs, Placeable i.stage .input v.semantic v.index) ∧
        ∀ v ∈ i.outputs, Placeable i.stage .output v.semantic v.index := by
  have hinputs := i.reset.assignInputs_ok_iff
  have houtputs := i.reset.assignOutputs_ok_iff
  simp only [reset, List.forall_mem_map] at hinputs houtputs
  simp only [assignSlots_eq_ok_iff]
  constructor
  · rintro ⟨_, inputs, outputs, hi, ho, -⟩
    exact ⟨hinputs.mp ⟨inputs, hi⟩, houtputs.mp ⟨outputs, ho⟩⟩
  · rintro ⟨hi, ho⟩
    obtain ⟨inputs, hi⟩ := hinputs.mpr hi
    obtain ⟨outputs, ho⟩ := houtputs.mpr ho
    exact ⟨_, inputs, outputs, hi, ho, rfl⟩

end Interface

/-! ### The check -/

namespace Declaration

theorem count_pos {d : Declaration} (h : d.WellFormed) : 0 < d.count := by
  have hle := h.register.first_le_last
  simp only [Register.count, maxNumber]
  omega

/-- No index of a varying comes near the end of the numbers. -/
theorem base_add_count_le {d : Declaration} (h : d.WellFormed) (hfile : d.file.isVarying = true) :
    d.base.2 + (d.count - 1) ≤ maxNumber := by
  have hlast : d.last < 80 := h.varying hfile
  have hfirst := h.register.first_le_last
  have hcount : d.count ≤ 80 := by
    simp only [Register.count]
    omega
  have hbase : d.base.2 ≤ 255 := by
    unfold base
    split
    · rename_i s index hb
      exact (h.binding _ hb).2.index_le
    · dsimp only
      omega
  simp only [maxNumber]
  omega

/-- Writing the depth as the position of a fragment decides nothing about places. -/
theorem placeable_role (stage : Stage) (d : Declaration) (index : Nat) :
    Placeable stage d.file (d.role stage) index ↔ Placeable stage d.file d.base.1 index := by
  unfold role
  split
  · rename_i h
    obtain ⟨hstage, hfile, hposition⟩ := h
    rw [hfile, hposition]
    simp [Placeable, hstage]
  · exact Iff.rfl

theorem forall_varyings_placeable_iff {d : Declaration} (h : d.WellFormed)
    (hfile : d.file.isVarying = true) (stage : Stage) :
    (∀ v ∈ d.varyings stage, Placeable stage d.file v.semantic v.index) ↔
      Placeable stage d.file d.base.1 (d.base.2 + (d.count - 1)) := by
  have hpos := count_pos h
  have hmax := base_add_count_le h hfile
  constructor
  · intro hall
    have hmem := List.mem_map_of_mem (f := fun k => Varying.withMask
      { semantic := d.role stage, index := min (d.base.2 + k) maxNumber } d.mask)
      (List.mem_range.mpr (Nat.sub_lt hpos Nat.one_pos))
    have hlast := (placeable_role stage d _).mp (hall _ hmem)
    simpa only [Varying.withMask, Nat.min_eq_left hmax] using hlast
  · intro hlast v hv
    obtain ⟨k, hk, rfl⟩ := List.mem_map.mp hv
    have hk : k < d.count := List.mem_range.mp hk
    refine (placeable_role stage d _).mpr (hlast.of_le ?_)
    exact (Nat.min_le_left _ _).trans (by omega)

theorem unplaceable?_eq_none_iff {d : Declaration} {s : Semantic} {index : Nat}
    (hfile : d.file.isVarying = true) (hmax : index + (d.count - 1) ≤ maxNumber) (stage : Stage) :
    d.unplaceable? stage s index = none ↔
      Placeable stage d.file s (index + (d.count - 1)) := by
  unfold unplaceable?
  simp only [if_neg (Nat.not_lt.mpr hmax)]
  cases hf : d.file with
  | input =>
      by_cases hstage : stage = .vertex
      · simp [hstage, Placeable]
      · simp only [hstage, false_and, if_false, reduceCtorEq, and_false, if_true, Placeable,
          false_or]
        cases s.inputAddress (index + (d.count - 1)) with
        | error reason => simp
        | ok offset => simp
  | output =>
      by_cases hstage : stage = .fragment
      · simp [hstage, Placeable]
      · simp only [hstage, false_and, if_false, reduceCtorEq, and_false, Placeable]
        cases s.outputAddress (index + (d.count - 1)) with
        | error reason => simp
        | ok address => simp
  | _ => simp [hf, RegisterFile.isVarying] at hfile

theorem placeable_generic {stage : Stage} {file : RegisterFile} {index : Nat}
    (h : index ≤ maxSemanticIndex) : Placeable stage file .generic index := by
  unfold Placeable
  split
  · exact .inr ⟨_, if_pos h⟩
  · split
    · simp
    · refine ⟨.offset (0x080 + index * 0x10), ?_⟩
      simp [Semantic.outputAddress, Semantic.rowOffset, h, Except.map]
  · trivial

/-- For a varying with a known role or none, the check finds a problem exactly where the last
register of the declaration has no place. -/
theorem placementProblem?_eq_none_iff {d : Declaration} (h : d.WellFormed)
    (hfile : d.file.isVarying = true)
    (hother : ∀ name index, d.binding ≠ some (.other name index)) (stage : Stage) :
    d.placementProblem? stage = none ↔
      Placeable stage d.file d.base.1 (d.base.2 + (d.count - 1)) := by
  have hmax := base_add_count_le h hfile
  unfold placementProblem?
  rw [if_pos hfile]
  cases hb : d.binding with
  | none =>
      have hbase : d.base = (.generic, d.first) := by simp [base, hb]
      have hlast : d.last < 80 := h.varying hfile
      have hfirst := h.register.first_le_last
      rw [hbase]
      refine iff_of_true rfl (placeable_generic ?_)
      simp only [Register.count, maxSemanticIndex]
      omega
  | some b =>
      cases b with
      | other name index => exact absurd hb (hother name index)
      | role s index =>
        have hbase : d.base = (s, index) := by simp [base, hb]
        rw [hbase] at hmax ⊢
        exact unplaceable?_eq_none_iff hfile hmax stage

theorem problems_eq_nil_iff {d : Declaration} {stage : Stage} :
    d.problems stage = [] ↔
      d.placementProblem? stage = none ∧ ¬ (stage = .compute ∧ d.file.isVarying = true) := by
  rw [problems, List.append_eq_nil_iff, Option.toList_eq_nil_iff]
  refine and_congr_right fun _ => ?_
  split
  · rename_i hcompute
    exact iff_of_false (List.cons_ne_nil _ _) (not_not_intro hcompute)
  · rename_i hcompute
    exact iff_of_true rfl hcompute

/-- A semantic that is no role has no place on a varying, so that only system values are left. -/
theorem file_of_other {d : Declaration} (hd : d.WellFormed) {stage : Stage}
    (hplace : d.placementProblem? stage = none) {name : Text} {index : Nat}
    (hb : d.binding = some (.other name index)) : d.file = .systemValue := by
  have hsemantic := (hd.binding _ hb).1
  have hvarying : d.file.isVarying ≠ true := by
    intro hfile
    simp [placementProblem?, hfile, hb] at hplace
  generalize d.file = file at hsemantic hvarying ⊢
  revert hsemantic hvarying
  cases file <;> decide

end Declaration

namespace Program

theorem mem_varyings {p : Program} {file : RegisterFile} {v : Varying} :
    v ∈ p.varyings file ↔ ∃ d ∈ p.declarations, d.file = file ∧ v ∈ d.varyings p.stage := by
  simp only [varyings, List.mem_flatMap, List.mem_filter, beq_iff_eq, and_assoc]

/-- The slots of a program's interface can be assigned exactly when the last register of every
varying declaration has a place. -/
theorem assignSlots_interface_iff {p : Program} (h : p.WellFormed) (target : Nat) :
    (∃ i, (p.interface target).assignSlots = .ok i) ↔
      ∀ d ∈ p.declarations, d.file.isVarying = true →
        Placeable p.stage d.file d.base.1 (d.base.2 + (d.count - 1)) := by
  rw [Interface.assignSlots_ok_iff]
  constructor
  · rintro ⟨hinputs, houtputs⟩ d hd hfile
    rw [← d.forall_varyings_placeable_iff (h.declarations d hd) hfile]
    intro v hv
    cases hf : d.file with
    | input => exact hinputs v (mem_varyings.mpr ⟨d, hd, hf, hv⟩)
    | output => exact houtputs v (mem_varyings.mpr ⟨d, hd, hf, hv⟩)
    | _ => simp [hf, RegisterFile.isVarying] at hfile
  · intro hall
    have hplace : ∀ file : RegisterFile, file.isVarying = true →
        ∀ v ∈ p.varyings file, Placeable p.stage file v.semantic v.index := by
      intro file hfile v hv
      obtain ⟨d, hd, rfl, hmem⟩ := mem_varyings.mp hv
      exact (d.forall_varyings_placeable_iff (h.declarations d hd) hfile p.stage).mpr
        (hall d hd hfile) v hmem
    exact ⟨hplace .input rfl, hplace .output rfl⟩

theorem declarationErrors_eq_nil_iff {p : Program} {stage : Stage} :
    p.declarationErrors stage = [] ↔
      ∀ d ∈ p.declarations, d.placementProblem? stage = none ∧
        ¬ (stage = .compute ∧ d.file.isVarying = true) := by
  simp only [declarationErrors, List.flatMap_eq_nil_iff, List.map_eq_nil_iff,
    Declaration.problems_eq_nil_iff]

/-- What is reported at a declaration, apart from a header for another stage, is about the
declaration: the report of a program without instructions carries help. -/
theorem exists_error_at_declaration_iff {p : Program} {stage : Stage} (hstage : p.stage = stage) :
    (∃ d ∈ p.declarations, ∃ message, Diagnostic.error message d.span ∈ p.errors stage) ↔
      p.declarationErrors stage ≠ [] := by
  have hempty : ∀ message span, Diagnostic.error message span ∉
      (if p.instructions.isEmpty then [noInstructions] else []) := by
    intro message span hmem
    split at hmem
    · have heq := congrArg Diagnostic.help (List.mem_singleton.mp hmem)
      cases heq
    · cases hmem
  constructor
  · rintro ⟨d, -, message, hmem⟩ hnil
    rw [errors, if_pos hstage, hnil] at hmem
    exact hempty message d.span (by simpa using hmem)
  · intro hne
    obtain ⟨e, he⟩ := List.exists_mem_of_ne_nil _ hne
    have hmem : e ∈ p.errors stage := by simp [errors, he]
    obtain ⟨d, hd, he⟩ := List.mem_flatMap.mp he
    obtain ⟨message, -, rfl⟩ := List.mem_map.mp he
    exact ⟨d, hd, message, hmem⟩

theorem ofSource_eq_ok {source : Text} {stage : Stage} {p : Program} :
    ofSource source stage = .ok p ↔ parse source = .ok p ∧ p.errors stage = [] := by
  unfold ofSource
  split
  · rename_i h
    simp [h]
  · rename_i q h
    rw [h]
    split
    · rename_i herrors
      constructor
      · intro heq
        cases heq
        exact ⟨rfl, herrors⟩
      · rintro ⟨heq, -⟩
        cases heq
        rfl
    · rename_i herrors
      constructor
      · intro heq
        cases heq
      · rintro ⟨heq, hnil⟩
        cases heq
        exact absurd hnil herrors

/-- A program without errors for a stage is one for that stage, has no problem in a declaration and
has instructions. -/
theorem errors_eq_nil_iff {p : Program} {stage : Stage} :
    p.errors stage = [] ↔
      p.stage = stage ∧ p.declarationErrors stage = [] ∧ p.instructions ≠ [] := by
  simp [errors]

theorem assignSlots_of_errors_eq_nil {p : Program} (h : p.WellFormed) {stage : Stage}
    (herrors : p.errors stage = []) (target : Nat) :
    ∃ i, (p.interface target).assignSlots = .ok i := by
  obtain ⟨rfl, hdeclarations, -⟩ := errors_eq_nil_iff.mp herrors
  rw [assignSlots_interface_iff h]
  intro d hd hfile
  obtain ⟨hplacement, -⟩ := declarationErrors_eq_nil_iff.mp hdeclarations d hd
  rw [← d.placementProblem?_eq_none_iff (h.declarations d hd) hfile ?_]
  · exact hplacement
  · intro name index hb
    simp [Declaration.placementProblem?, hfile, hb] at hplacement

end Program

theorem FrontEnd.compile_fst (f : FrontEnd) (source : Text) (stage : Stage) :
    (f.compile source stage).1 = Program.ofSource source stage := by
  unfold FrontEnd.compile
  split
  · rename_i h
    exact h.symm
  · rename_i h
    exact h.symm

/-- The check is exact. A program that a front-end accepts can be given its slots; and for a program
of the wanted stage that declares no varying of an unknown role, outside of compute, something is
reported at a declaration exactly when the slots cannot be assigned. -/
theorem Program.placement_check_exact :
    (∀ (f : FrontEnd) (source : Text) (stage : Stage) (target : Nat) (p : Program),
      (f.compile source stage).1 = .ok p → ∃ i, (p.interface target).assignSlots = .ok i) ∧
    (∀ (source : Text) (stage : Stage) (target : Nat) (p : Program),
      parse source = .ok p → p.stage = stage → stage ≠ .compute →
      (∀ d ∈ p.declarations, d.file.isVarying = true →
        ∀ name index, d.binding ≠ some (.other name index)) →
      ((∃ d ∈ p.declarations, ∃ message, Diagnostic.error message d.span ∈ p.errors stage) ↔
        ∃ e, (p.interface target).assignSlots = .error e)) := by
  constructor
  · intro f source stage target p h
    rw [f.compile_fst, ofSource_eq_ok] at h
    exact assignSlots_of_errors_eq_nil (parse_wellFormed h.1) h.2 target
  · rintro source stage target p hparse rfl hcompute hother
    have hwf := parse_wellFormed hparse
    rw [exists_error_at_declaration_iff rfl, ← Except.not_exists_ok_iff,
      assignSlots_interface_iff hwf, ne_eq, declarationErrors_eq_nil_iff, not_iff_not]
    refine forall₂_congr fun d hd => ?_
    by_cases hfile : d.file.isVarying = true
    · rw [d.placementProblem?_eq_none_iff (hwf.declarations d hd) hfile (hother d hd hfile)]
      simp [hfile, hcompute]
    · simp [hfile, Declaration.placementProblem?]

/-- A fragment program that writes two colors, from a given one on. -/
def twoColors (first : Nat) : Program where
  stage := .fragment
  declarations := [{
    file := .output, first := 0, last := 1, binding := some (.role .color first), span := ⟨5, 28⟩ }]
  instructions := [{ opcode := "END".toList, operands := [], span := ⟨29, 35⟩ }]

theorem Program.placement_check_exact_colors :
    (FrontEnd.compile {} "FRAG\nDCL OUT[0..1], COLOR[6]\n0: END" .fragment).1 = .ok (twoColors 6) ∧
    (∃ i, ((twoColors 6).interface 0x12b).assignSlots = .ok i) ∧
    parse "FRAG\nDCL OUT[0..1], COLOR[7]\n0: END" = .ok (twoColors 7) ∧
    (∃ d ∈ (twoColors 7).declarations, ∃ message,
      Diagnostic.error message d.span ∈ (twoColors 7).errors .fragment) ∧
    ∃ e, ((twoColors 7).interface 0x12b).assignSlots = .error e := by
  have haccepted : (FrontEnd.compile {} "FRAG\nDCL OUT[0..1], COLOR[6]\n0: END" .fragment).1 =
      .ok (twoColors 6) := rfl
  have hparse : parse "FRAG\nDCL OUT[0..1], COLOR[7]\n0: END" = .ok (twoColors 7) := rfl
  have hreported : ∃ d ∈ (twoColors 7).declarations, ∃ message,
      Diagnostic.error message d.span ∈ (twoColors 7).errors .fragment :=
    ⟨_, List.mem_singleton.mpr rfl, _, List.mem_singleton.mpr rfl⟩
  refine ⟨haccepted, placement_check_exact.1 _ _ _ 0x12b _ haccepted, hparse, hreported, ?_⟩
  refine (placement_check_exact.2 _ .fragment 0x12b _ hparse rfl (by decide) ?_).mp hreported
  simp [twoColors]

end ShaderBackend
