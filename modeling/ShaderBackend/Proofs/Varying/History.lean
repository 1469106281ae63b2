import ShaderBackend.Proofs.Varying.SlotFormula

/-!
Interfaces that are edited and assigned slots over and over. An assignment sees only what is
declared: the stage, the target, and the roles and indices on both sides. It changes nothing of
that, so that no earlier assignment can be noticed in a later one. Nor does a slot of an earlier one
stay in place: the policies write some of the slots of a varying and leave the others as they find
them, but they find them reset.
-/

namespace ShaderBackend

namespace Varying

/-- The varying as it is when it is first declared. -/
def fresh (v : Varying) : Varying :=
  { semantic := v.semantic, index := v.index }

theorem inputMask_of_assigned (stage : Stage) (v : Varying) (slots : Slots) :
    inputMask stage { v with mask := inputMask stage v, slots } = inputMask stage v := by
  change (if stage = .vertex ∧ v.isSystemValue = true then 1 else inputMask stage v) = _
  split
  · rename_i hsystem
    rw [inputMask, if_pos hsystem]
  · rfl

end Varying

namespace Interface

/-- What can be done to an interface. -/
inductive Step where
  | assign
  | setStage (stage : Stage)
  | setTarget (target : Nat)
  | addInput (v : Varying)
  | addOutput (v : Varying)
  | dropInput (place : Nat)
  | dropOutput (place : Nat)
  deriving DecidableEq, Repr

def Step.isEdit : Step → Bool
  | .assign => false
  | _ => true

/-- The interface after a step. Slots cannot be assigned to a varying without a place, and a varying
cannot be dropped where there is none. -/
def step (i : Interface) : Step → Option Interface
  | .assign => i.assignSlots.toOption
  | .setStage stage => some { i with stage }
  | .setTarget target => some { i with target }
  | .addInput v => some { i with inputs := i.inputs ++ [v] }
  | .addOutput v => some { i with outputs := i.outputs ++ [v] }
  | .dropInput place =>
    if place < i.inputs.length then some { i with inputs := i.inputs.eraseIdx place } else none
  | .dropOutput place =>
    if place < i.outputs.length then some { i with outputs := i.outputs.eraseIdx place } else none

/-- The interface after all steps of a history, if none of them failed. -/
def run (i : Interface) : List Step → Option Interface
  | [] => some i
  | s :: rest => (i.step s).bind (·.run rest)

/-- The interface as it is when it is first declared. -/
def fresh (i : Interface) : Interface :=
  { i with inputs := i.inputs.map Varying.fresh, outputs := i.outputs.map Varying.fresh }

/-- The same stage and target, and the same roles and indices in the same order. -/
structure SameDeclarations (i j : Interface) : Prop where
  stage_eq : j.stage = i.stage
  target_eq : j.target = i.target
  inputs_eq : j.inputs.map Varying.key = i.inputs.map Varying.key
  outputs_eq : j.outputs.map Varying.key = i.outputs.map Varying.key

structure SameSlots (i j : Interface) : Prop where
  inputs_eq : j.inputs.map Varying.slots = i.inputs.map Varying.slots
  outputs_eq : j.outputs.map Varying.slots = i.outputs.map Varying.slots

/-- The declarations and the masks are those of before, but that a vertex program uses only the
first component of a value that the driver makes up. -/
structure OnlySlotsChanged (i i' : Interface) : Prop extends SameDeclarations i i' where
  inputs_mask : i'.inputs.map Varying.mask =
    i.inputs.map fun v => if i.stage = .vertex ∧ v.isSystemValue = true then 1 else v.mask
  outputs_mask : i'.outputs.map Varying.mask = i.outputs.map Varying.mask

/-! ### One assignment -/

variable {i j i' j' : Interface}

theorem SameDeclarations.refl (i : Interface) : SameDeclarations i i :=
  ⟨rfl, rfl, rfl, rfl⟩

theorem SameDeclarations.symm (h : SameDeclarations i j) : SameDeclarations j i :=
  ⟨h.stage_eq.symm, h.target_eq.symm, h.inputs_eq.symm, h.outputs_eq.symm⟩

theorem SameDeclarations.trans {k : Interface} (h : SameDeclarations i j)
    (h' : SameDeclarations j k) : SameDeclarations i k :=
  ⟨h'.stage_eq.trans h.stage_eq, h'.target_eq.trans h.target_eq, h'.inputs_eq.trans h.inputs_eq,
    h'.outputs_eq.trans h.outputs_eq⟩

theorem sameDeclarations_fresh (i : Interface) : SameDeclarations i i.fresh where
  stage_eq := rfl
  target_eq := rfl
  inputs_eq := by
    rw [fresh, List.map_map]
    rfl
  outputs_eq := by
    rw [fresh, List.map_map]
    rfl

theorem sameDeclarations_of_assignSlots (h : i.assignSlots = .ok i') : SameDeclarations i i' := by
  obtain ⟨hstage, htarget, hinputs, houtputs⟩ := map_key_of_assignSlots h
  exact ⟨hstage, htarget, hinputs, houtputs⟩

/-- Whether slots can be assigned is decided by the declarations. -/
theorem SameDeclarations.assignSlots_ok (h : SameDeclarations i j) (hi : i.assignSlots = .ok i') :
    ∃ j', j.assignSlots = .ok j' := by
  have hplaceable : ∀ {file : RegisterFile} {vs ws : List Varying},
      ws.map Varying.key = vs.map Varying.key →
      (∀ v ∈ vs, Placeable i.stage file v.semantic v.index) →
      ∀ w ∈ ws, Placeable j.stage file w.semantic w.index := by
    intro file vs ws hkeys hvs w hw
    have hmem : w.key ∈ vs.map Varying.key := hkeys ▸ List.mem_map_of_mem hw
    obtain ⟨v, hv, hkey⟩ := List.mem_map.mp hmem
    obtain ⟨hsemantic, hindex⟩ := Prod.mk.inj hkey
    rw [h.stage_eq, ← hsemantic, ← hindex]
    exact hvs v hv
  obtain ⟨hinputs, houtputs⟩ := (assignSlots_ok_iff i).mp ⟨i', hi⟩
  exact (assignSlots_ok_iff j).mpr
    ⟨hplaceable h.inputs_eq hinputs, hplaceable h.outputs_eq houtputs⟩

/-- The slots of an assigned interface, from its declarations alone. -/
theorem map_slots_of_assignSlots (h : i.assignSlots = .ok i') :
    i'.inputs.map Varying.slots =
      ((i.inputs.map Varying.key).mapIdx fun k =>
        Varying.inputSlots i.stage (i.inputs.map Varying.key) k .unassigned) ∧
    i'.outputs.map Varying.slots =
      ((i.outputs.map Varying.key).mapIdx fun k =>
        Varying.outputSlots i.stage i.target (i.outputs.map Varying.key) k .unassigned) := by
  constructor
  · apply List.ext_getElem?
    intro k
    rw [List.getElem?_map, getElem?_inputs_of_assignSlots h, List.getElem?_mapIdx,
      List.getElem?_map, Option.map_map, Option.map_map]
    rfl
  · apply List.ext_getElem?
    intro k
    rw [List.getElem?_map, getElem?_outputs_of_assignSlots h, List.getElem?_mapIdx,
      List.getElem?_map, Option.map_map, Option.map_map]
    rfl

theorem SameDeclarations.sameSlots (h : SameDeclarations i j) (hi : i.assignSlots = .ok i')
    (hj : j.assignSlots = .ok j') : SameSlots i' j' := by
  obtain ⟨hinputs, houtputs⟩ := map_slots_of_assignSlots hi
  obtain ⟨hinputs', houtputs'⟩ := map_slots_of_assignSlots hj
  constructor
  · rw [hinputs', hinputs, h.inputs_eq, h.stage_eq]
  · rw [houtputs', houtputs, h.outputs_eq, h.stage_eq, h.target_eq]

theorem onlySlotsChanged_of_assignSlots (h : i.assignSlots = .ok i') : OnlySlotsChanged i i' where
  toSameDeclarations := sameDeclarations_of_assignSlots h
  inputs_mask := by
    apply List.ext_getElem?
    intro k
    rw [List.getElem?_map, getElem?_inputs_of_assignSlots h, List.getElem?_map, Option.map_map]
    rfl
  outputs_mask := by
    apply List.ext_getElem?
    intro k
    rw [List.getElem?_map, getElem?_outputs_of_assignSlots h, List.getElem?_map, Option.map_map]
    rfl

/-- A second assignment finds the declarations of the first, and its masks. -/
theorem assignSlots_of_assignSlots (h : i.assignSlots = .ok i') : i'.assignSlots = .ok i' := by
  have hsame := sameDeclarations_of_assignSlots h
  obtain ⟨i'', h'⟩ := hsame.assignSlots_ok h
  have hinputs : i''.inputs = i'.inputs := by
    apply List.ext_getElem?
    intro k
    rw [getElem?_inputs_of_assignSlots h', getElem?_inputs_of_assignSlots h, Option.map_map,
      hsame.inputs_eq, hsame.stage_eq]
    congr 1
    funext v
    simp [Varying.inputMask_of_assigned, Varying.key]
  have houtputs : i''.outputs = i'.outputs := by
    apply List.ext_getElem?
    intro k
    rw [getElem?_outputs_of_assignSlots h', getElem?_outputs_of_assignSlots h, Option.map_map,
      hsame.outputs_eq, hsame.stage_eq, hsame.target_eq]
    rfl
  have heq : i'' = i' := by
    obtain ⟨inputs, outputs, -, -, rfl⟩ := assignSlots_eq_ok_iff.mp h'
    dsimp only at hinputs houtputs
    rw [hinputs, houtputs]
  rwa [heq] at h'

/-! ### A history of them -/

theorem run_append (i : Interface) (before after : List Step) :
    i.run (before ++ after) = (i.run before).bind (·.run after) := by
  induction before generalizing i with
  | nil => rfl
  | cons s before ih =>
      rw [List.cons_append, run, run, Option.bind_assoc]
      congr 1
      funext next
      exact ih next

theorem step_assign_eq_some_iff : i.step .assign = some i' ↔ i.assignSlots = .ok i' := by
  rw [step]
  cases i.assignSlots with
  | error e => simp [Except.toOption]
  | ok next => simp [Except.toOption]

/-- An edit does the same to two interfaces with the same declarations. -/
theorem SameDeclarations.step (h : SameDeclarations i j) {s : Step} (hedit : s.isEdit = true)
    (hi : i.step s = some i') : ∃ j', j.step s = some j' ∧ SameDeclarations i' j' := by
  obtain ⟨hstage, htarget, hinputs, houtputs⟩ := h
  cases s with
  | assign => cases hedit
  | setStage stage =>
    cases hi
    exact ⟨_, rfl, rfl, htarget, hinputs, houtputs⟩
  | setTarget target =>
    cases hi
    exact ⟨_, rfl, hstage, rfl, hinputs, houtputs⟩
  | addInput v =>
    cases hi
    exact ⟨_, rfl, hstage, htarget, by rw [List.map_append, List.map_append, hinputs], houtputs⟩
  | addOutput v =>
    cases hi
    exact ⟨_, rfl, hstage, htarget, hinputs, by rw [List.map_append, List.map_append, houtputs]⟩
  | dropInput place =>
    simp only [Interface.step, Option.ite_none_right_eq_some, Option.some.injEq] at hi
    obtain ⟨hplace, rfl⟩ := hi
    have hlength : j.inputs.length = i.inputs.length := by simpa using congrArg List.length hinputs
    refine ⟨_, if_pos (hlength ▸ hplace), hstage, htarget, ?_, houtputs⟩
    dsimp only
    rw [← List.eraseIdx_map, hinputs, List.eraseIdx_map]
  | dropOutput place =>
    simp only [Interface.step, Option.ite_none_right_eq_some, Option.some.injEq] at hi
    obtain ⟨hplace, rfl⟩ := hi
    have hlength : j.outputs.length = i.outputs.length := by
      simpa using congrArg List.length houtputs
    refine ⟨_, if_pos (hlength ▸ hplace), hstage, htarget, hinputs, ?_⟩
    dsimp only
    rw [← List.eraseIdx_map, houtputs, List.eraseIdx_map]

/-- The edits of a history alone lead to the same declarations as the whole of it. -/
theorem SameDeclarations.run_edits (h : SameDeclarations i j) {history : List Step}
    (hi : i.run history = some i') :
    ∃ j', j.run (history.filter Step.isEdit) = some j' ∧ SameDeclarations i' j' := by
  -- The two runs stay in step: an edit is made in both, an assignment in the first one only.
  induction history generalizing i j with
  | nil =>
      cases hi
      exact ⟨j, rfl, h⟩
  | cons s history ih =>
      obtain ⟨next, hnext, hrest⟩ := Option.bind_eq_some_iff.mp hi
      by_cases hedit : s.isEdit = true
      · obtain ⟨next', hnext', hsame⟩ := h.step hedit hnext
        rw [List.filter_cons_of_pos hedit, run, hnext']
        exact ih hsame hrest
      · obtain rfl : s = .assign := by
          cases s with
          | assign => rfl
          | _ => exact absurd rfl hedit
        have hkept := sameDeclarations_of_assignSlots (step_assign_eq_some_iff.mp hnext)
        rw [List.filter_cons_of_neg hedit]
        exact ih (hkept.symm.trans h) hrest

/-- In every history that does not fail, an assignment gives the slots that a fresh interface with
the same declarations would get, and those that the edits before it would lead to without any
assignment between them. Doing it once more changes nothing, and once is enough to change nothing
but slots and the masks of values that the driver makes up. -/
theorem assignment_history_free (start final : Interface) (before after : List Step)
    (h : start.run (before ++ .assign :: after) = some final) :
    ∃ i i', start.run before = some i ∧ i.assignSlots = .ok i' ∧ i'.run after = some final ∧
      (∃ f, i.fresh.assignSlots = .ok f ∧ SameSlots f i') ∧
      (∃ e e', start.run (before.filter Step.isEdit) = some e ∧ e.assignSlots = .ok e' ∧
        SameSlots e' i') ∧
      i'.assignSlots = .ok i' ∧ OnlySlotsChanged i i' := by
  rw [run_append, Option.bind_eq_some_iff] at h
  obtain ⟨i, hbefore, h⟩ := h
  obtain ⟨i', hstep, hafter⟩ := Option.bind_eq_some_iff.mp h
  have hassign := step_assign_eq_some_iff.mp hstep
  refine ⟨i, i', hbefore, hassign, hafter, ?_, ?_, assignSlots_of_assignSlots hassign,
    onlySlotsChanged_of_assignSlots hassign⟩
  · obtain ⟨f, hf⟩ := (sameDeclarations_fresh i).assignSlots_ok hassign
    exact ⟨f, hf, (sameDeclarations_fresh i).symm.sameSlots hf hassign⟩
  · obtain ⟨e, he, hsame⟩ := (SameDeclarations.refl start).run_edits hbefore
    obtain ⟨e', he'⟩ := hsame.assignSlots_ok hassign
    exact ⟨e, e', he, he', hsame.symm.sameSlots he' hassign⟩

/-- A fragment interface with slots left over from elsewhere. -/
def staleOutputs : Interface where
  stage := .fragment
  target := 0x12b
  inputs := [{ semantic := .generic, index := 2 }]
  outputs := [{ semantic := .color, index := 1 }, { semantic := .fragDepth, index := 0 },
    { semantic := .edgeFlag, index := 0, slots := .consecutive 99 }]

/-- After an assignment the depth is dropped, and the rest goes on as a vertex interface. -/
def changeOfStage : List Step :=
  [.assign, .dropOutput 1, .setStage .vertex, .setTarget 0xc0,
    .addInput { semantic := .instanceId, index := 0, mask := 0x3, slots := .consecutive 99 }]

theorem assignment_history_free_changeOfStage :
    ∃ final, staleOutputs.run (changeOfStage ++ .assign :: [.dropInput 0]) = some final ∧
      ∃ i i', staleOutputs.run changeOfStage = some i ∧ i.assignSlots = .ok i' ∧
        i'.inputs.map Varying.slots = [.consecutive 0x20, { x := some 0xbe }] ∧
        i'.outputs.map Varying.slots = [.consecutive 0xa4, .unassigned] ∧
        (∃ f, i.fresh.assignSlots = .ok f ∧ SameSlots f i') ∧ i'.assignSlots = .ok i' := by
  obtain ⟨i, i', hbefore, hassign, -, hfresh, -, hagain, -⟩ :=
    assignment_history_free staleOutputs _ changeOfStage [.dropInput 0] rfl
  cases hbefore
  cases hassign
  exact ⟨_, rfl, _, _, rfl, rfl, rfl, rfl, hfresh, hagain⟩

end Interface

end ShaderBackend
