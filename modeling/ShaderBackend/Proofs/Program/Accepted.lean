import ShaderBackend.Proofs.Generator.Request

/-!
What is true of every program that a front-end accepts. Part of it holds of all that was read, and
the check of the program against its stage adds the rest: the stage itself, an instruction, and for
varyings that their semantic is a role and that the stage has varyings at all.
-/

namespace ShaderBackend

/-! ### Words -/

def IsCapital (c : Char) : Prop :=
  'A' ≤ c ∧ c ≤ 'Z'

/-- Nothing in the text ends a line or starts a comment. -/
theorem Text.OneLine.not_mem {t : Text} (h : t.OneLine) : ';' ∉ t ∧ '\n' ∉ t :=
  ⟨fun hc => (h _ hc).2 rfl, fun hc => (h _ hc).1 rfl⟩

theorem capital_of_isUpperOrUnderscore {c : Char} (h : isUpperOrUnderscore c = true) :
    IsCapital c ∨ c = '_' := by
  simp only [isUpperOrUnderscore, Bool.or_eq_true, beq_iff_eq] at h
  exact h.imp_left fun hc => (of_decide_eq_true hc : 'A' ≤ c ∧ c ≤ 'Z')

theorem isSemanticName_oneLine {t : Text} (h : isSemanticName t = true) : t.OneLine := by
  intro c hc
  have hclass := (isSemanticName_forall h).2 c hc
  exact ⟨Text.ne_of_class hclass (by decide), Text.ne_of_class hclass (by decide)⟩

theorem isOpcode_oneLine {t : Text} (h : isOpcode t = true) : t.OneLine := by
  intro c hc
  rcases (isOpcode_forall h).2 c hc with hclass | hclass
  · exact ⟨Text.ne_of_class hclass (by decide), Text.ne_of_class hclass (by decide)⟩
  · exact ⟨Text.ne_of_class hclass (by decide), Text.ne_of_class hclass (by decide)⟩

/-! ### Declarations -/

/-- The semantics that a declaration in a file can have: a role with a name, or for a system value
another word, which is no role's name. -/
def Binding.Allowed (file : RegisterFile) : Binding → Prop
  | role s index => s ≠ .fragDepth ∧ index ≤ 255
  | other name index =>
    file = .systemValue ∧ name ≠ [] ∧ (∀ c ∈ name, IsCapital c ∨ c = '_') ∧
      (∀ s : Semantic, s.name ≠ name) ∧ index ≤ 255

structure Declaration.Accepted (stage : Stage) (d : Declaration) : Prop where
  first_le_last : d.first ≤ d.last
  one_le_mask : 1 ≤ d.mask.toNat
  mask_le : d.mask.toNat ≤ 15
  binding : ∀ b ∈ d.binding, d.file ∈ [.input, .output, .systemValue] ∧ b.Allowed d.file
  last_le : d.file ∈ [.input, .output] → d.last ≤ 79
  stage_ne : d.file ∈ [.input, .output] → stage ≠ .compute
  unbound : d.binding = none → d.file ∈ [.input, .output, .systemValue] → d.attributes = [] ∨
    ∃ a rest, d.attributes = a :: rest ∧ (a ∈ declarationAttributes ∨ "ARRAY(".toList <+: a)
  attributes : ∀ a ∈ d.attributes, a.Trimmed

namespace RegisterFile

theorem hasSemantic_iff {file : RegisterFile} :
    file.hasSemantic = true ↔ file ∈ [.input, .output, .systemValue] := by
  cases file <;> decide

theorem isVarying_iff {file : RegisterFile} : file.isVarying = true ↔ file ∈ [.input, .output] := by
  cases file <;> decide

end RegisterFile

theorem isDeclarationAttribute_iff {t : Text} :
    isDeclarationAttribute t = true ↔ t ∈ declarationAttributes ∨ "ARRAY(".toList <+: t := by
  rw [isDeclarationAttribute, Bool.or_eq_true, List.contains_iff_mem, List.isPrefixOf_iff_prefix]

namespace Binding

theorem ne_fragDepth {s : Semantic} {index : Nat} (h : (role s index).WellFormed) :
    s ≠ .fragDepth := by
  rintro rfl
  have hname := h.ofName
  cases hname

/-- A name that was kept as another one is the name of no role. -/
theorem name_ne_of_other {name : Text} {index : Nat} (h : (other name index).WellFormed)
    (s : Semantic) : s.name ≠ name := by
  intro hs
  have hname : Binding.ofName name index = other name index := h.ofName
  rw [← hs, Binding.ofName, Semantic.ofName?_name] at hname
  cases hname

end Binding

namespace Declaration

/-- With a place for its varyings, a declaration has a semantic that its file allows. -/
theorem allowed_of_placed {d : Declaration} (hd : d.WellFormed) {stage : Stage}
    (hplace : d.placementProblem? stage = none) {b : Binding} (hb : b ∈ d.binding) :
    b.Allowed d.file := by
  obtain ⟨-, hwf⟩ := hd.binding b hb
  cases b with
  | role s index => exact ⟨Binding.ne_fragDepth hwf, hwf.index_le⟩
  | other name index =>
      obtain ⟨hne, hall⟩ := isSemanticName_forall hwf.name
      exact ⟨file_of_other hd hplace hb, hne,
        fun c hc => capital_of_isUpperOrUnderscore (hall c hc), Binding.name_ne_of_other hwf,
        hwf.index_le⟩

theorem accepted_of_problems_eq_nil {d : Declaration} (hd : d.WellFormed) {stage : Stage}
    (h : d.problems stage = []) : d.Accepted stage := by
  obtain ⟨hplace, hcompute⟩ := problems_eq_nil_iff.mp h
  have hmask : d.mask.toNat ≠ 0 := fun hzero =>
    hd.register.mask_ne_zero (UInt8.toNat_inj.mp hzero)
  constructor
  case first_le_last => exact hd.register.first_le_last
  case one_le_mask => omega
  case mask_le => exact Nat.le_of_lt_succ hd.register.mask_lt
  case binding =>
    intro b hb
    exact ⟨RegisterFile.hasSemantic_iff.mp (hd.binding b hb).1, allowed_of_placed hd hplace hb⟩
  case last_le =>
    intro hfile
    exact Nat.le_of_lt_succ (hd.varying (RegisterFile.isVarying_iff.mpr hfile))
  case stage_ne =>
    intro hfile hstage
    exact hcompute ⟨hstage, RegisterFile.isVarying_iff.mpr hfile⟩
  case unbound =>
    intro hnone hfile
    have hhead := hd.unbound hnone (RegisterFile.hasSemantic_iff.mpr hfile)
    cases hattributes : d.attributes with
    | nil => exact .inl rfl
    | cons a rest =>
      rw [hattributes] at hhead
      exact .inr ⟨a, rest, rfl, isDeclarationAttribute_iff.mp (hhead a rfl)⟩
  case attributes => exact fun a ha => (hd.attributes a ha).1

end Declaration

/-! ### Programs -/

structure Immediate.Accepted (i : Immediate) : Prop where
  kind : i.kind ∈ immediateKinds
  one_le_length : 1 ≤ i.values.length
  length_le : i.values.length ≤ 4
  values : ∀ v ∈ i.values, v ≠ [] ∧ v.Trimmed ∧ ',' ∉ v

structure Instruction.Accepted (i : Instruction) : Prop where
  opcode_ne_nil : i.opcode ≠ []
  opcode : ∀ c ∈ i.opcode, IsCapital c ∨ c.isDigit = true ∨ c = '_'
  operands : ∀ o ∈ i.operands, o.Trimmed

namespace Program

/-- All the texts that a program keeps. The name of a role is not kept. -/
def texts (p : Program) : List Text :=
  (p.properties.flatMap fun x => [x.name, x.value]) ++
    (p.declarations.flatMap fun d =>
      (match d.binding with
        | some (.other name _) => [name]
        | _ => []) ++ d.attributes) ++
    (p.immediates.flatMap fun i => i.kind :: i.values) ++
    p.instructions.flatMap fun i => i.opcode :: i.operands

structure Accepted (stage : Stage) (p : Program) : Prop where
  stage_eq : p.stage = stage
  instructions_ne_nil : p.instructions ≠ []
  properties : ∀ x ∈ p.properties, x.name.IsWord ∧ x.value.IsWord
  declarations : ∀ d ∈ p.declarations, d.Accepted stage
  immediates : ∀ i ∈ p.immediates, i.Accepted
  instructions : ∀ i ∈ p.instructions, i.Accepted
  texts : ∀ t ∈ p.texts, ';' ∉ t ∧ '\n' ∉ t

theorem oneLine_of_mem_texts {p : Program} (hp : p.WellFormed) {t : Text} (ht : t ∈ p.texts) :
    t.OneLine := by
  simp only [texts, List.mem_append, List.mem_flatMap] at ht
  rcases ht with ((⟨x, hx, ht⟩ | ⟨d, hd, ht⟩) | ⟨i, hi, ht⟩) | ⟨i, hi, ht⟩
  · obtain ⟨hname, hvalue⟩ := (hp.properties x hx).oneLine
    rcases List.mem_pair.mp ht with rfl | rfl
    · exact hname
    · exact hvalue
  · rcases ht with ht | ht
    · split at ht
      · rename_i name index hb
        obtain rfl := List.mem_singleton.mp ht
        exact isSemanticName_oneLine ((hp.declarations d hd).binding _ hb).2.name
      · cases ht
    · exact ((hp.declarations d hd).attributes t ht).2
  · have hkinds : ∀ kind ∈ immediateKinds, ∀ c ∈ kind, c ≠ '\n' ∧ c ≠ ';' := by decide
    rcases List.mem_cons.mp ht with rfl | ht
    · exact hkinds _ (hp.immediates i hi).kind
    · exact ((hp.immediates i hi).values t ht).2.2.2
  · rcases List.mem_cons.mp ht with rfl | ht
    · exact isOpcode_oneLine (hp.instructions i hi).opcode
    · exact ((hp.instructions i hi).operands t ht).2

end Program

theorem Instruction.WellFormed.accepted {i : Instruction} (h : i.WellFormed) : i.Accepted := by
  obtain ⟨hne, hall⟩ := isOpcode_forall h.opcode
  refine ⟨hne, fun c hc => ?_, fun o ho => (h.operands o ho).1⟩
  rcases hall c hc with hword | hdigit
  · exact (capital_of_isUpperOrUnderscore hword).imp_right .inr
  · exact .inr (.inl hdigit)

/-- Every accepted program is for the stage that was asked for, has an instruction, and is well
formed in all its parts. -/
theorem FrontEnd.compile_wellFormed (f : FrontEnd) (source : Text) (stage : Stage) (p : Program)
    (h : (f.compile source stage).1 = .ok p) : p.Accepted stage := by
  rw [f.compile_fst, Program.ofSource_eq_ok] at h
  have hp := Program.parse_wellFormed h.1
  obtain ⟨hstage, herrors, hne⟩ := Program.errors_eq_nil_iff.mp h.2
  constructor
  case stage_eq => exact hstage
  case instructions_ne_nil => exact hne
  case properties => exact fun x hx => ⟨(hp.properties x hx).name, (hp.properties x hx).value⟩
  case declarations =>
    intro d hd
    refine d.accepted_of_problems_eq_nil (hp.declarations d hd) ?_
    exact Declaration.problems_eq_nil_iff.mpr
      (Program.declarationErrors_eq_nil_iff.mp herrors d hd)
  case immediates =>
    intro i hi
    obtain ⟨hkind, hvalues, hlength, hall⟩ := hp.immediates i hi
    refine ⟨hkind, List.length_pos_of_ne_nil hvalues, hlength, fun v hv => ?_⟩
    exact ⟨(hall v hv).1, (hall v hv).2.1, (hall v hv).2.2.1⟩
  case instructions => exact fun i hi => (hp.instructions i hi).accepted
  case texts => exact fun t ht => (Program.oneLine_of_mem_texts hp ht).not_mem

/-- A varying with a role, an input with an attribute in the place of a semantic, and a system value
with another name. -/
theorem FrontEnd.compile_wellFormed_threeSemantics :
    ∃ p, (FrontEnd.compile {} "FRAG\nDCL IN[0].xy, COLOR\nDCL IN[1..79], LOCAL\nDCL SV[0], A_B\nEND"
        .fragment).1 = .ok p ∧
      p.declarations.map (·.binding) =
        [some (.role .color 0), none, some (.other "A_B".toList 0)] ∧
      p.Accepted .fragment := by
  have hcompile : ∃ p, (FrontEnd.compile {}
      "FRAG\nDCL IN[0].xy, COLOR\nDCL IN[1..79], LOCAL\nDCL SV[0], A_B\nEND" .fragment).1 = .ok p ∧
        p.declarations.map (·.binding) =
          [some (.role .color 0), none, some (.other "A_B".toList 0)] := ⟨_, rfl, rfl⟩
  obtain ⟨p, hp, hbindings⟩ := hcompile
  exact ⟨p, hp, hbindings, FrontEnd.compile_wellFormed _ _ _ p hp⟩

end ShaderBackend
