import ShaderBackend.Proofs.Program.Canonical

/-!
When a printed declaration is read back as the same declaration. Where a semantic could stand, a
word from a fixed list is an attribute. A semantic of such a name can be declared all the same, with
an index; and since an index of zero is not printed, it comes back as an attribute. No other
declaration of an accepted program changes, and only a system value can have such a semantic.
-/

namespace ShaderBackend

theorem Binding.render_other_zero (name : Text) : (Binding.other name 0).render = name :=
  List.append_nil name

theorem parenthesis_not_mem_binding {b : Binding} (hb : b.WellFormed) : '(' ∉ b.render :=
  fun h => absurd (isRegisterChar_of_mem_binding hb h) (by decide)

/-- A semantic is spelled like an attribute exactly if its name is one and its index is zero. -/
theorem isDeclarationAttribute_render_iff {b : Binding} (hb : b.WellFormed) :
    isDeclarationAttribute b.render = true ↔ ∃ name ∈ declarationAttributes, b = .other name 0 := by
  -- The one family of attributes that is not in the list has a parenthesis in its spelling.
  have harray : List.isPrefixOf "ARRAY(".toList b.render = false := by
    rw [← Bool.not_eq_true, List.isPrefixOf_iff_prefix]
    intro h
    exact parenthesis_not_mem_binding hb (h.subset (by decide))
  rw [isDeclarationAttribute, harray, Bool.or_false, List.contains_iff_mem]
  cases b with
  | role s index =>
      have hrole := Declaration.not_isDeclarationAttribute_role s index
      rw [isDeclarationAttribute, harray, Bool.or_false, ← Bool.not_eq_true,
        List.contains_iff_mem] at hrole
      simp [hrole]
  | other name index =>
      by_cases hindex : index = 0
      · rw [hindex, Binding.render_other_zero]
        simp
      · have hplain : ∀ a ∈ declarationAttributes, '[' ∉ a := by decide
        have hbracket : '[' ∈ (Binding.other name index).render := by
          show '[' ∈ name ++ if index = 0 then [] else bracketed index
          rw [if_neg hindex]
          simp [bracketed]
        refine iff_of_false (fun hmem => hplain _ hmem hbracket) ?_
        rintro ⟨a, -, heq⟩
        cases heq
        exact hindex rfl

namespace Declaration

/-- The semantic of the declaration is printed as a word that stands for an attribute. -/
def PrintedAsAttribute (d : Declaration) : Prop :=
  ∃ name ∈ declarationAttributes, d.binding = some (.other name 0)

theorem canonical_of_not_printedAsAttribute {d : Declaration} (hd : d.WellFormed)
    (h : ¬ d.PrintedAsAttribute) : d.canonical = d := by
  rcases d.canonical_cases with hsame | ⟨b, hb, hattribute, -⟩
  · exact hsame
  · obtain ⟨name, hname, rfl⟩ :=
      (isDeclarationAttribute_render_iff (hd.binding b hb).2).mp hattribute
    exact absurd ⟨name, hname, hb⟩ h

theorem canonical_of_printedAsAttribute {d : Declaration} {name : Text}
    (hname : name ∈ declarationAttributes) (hb : d.binding = some (.other name 0)) :
    d.canonical = { d with binding := none, attributes := name :: d.attributes } := by
  have hattribute : isDeclarationAttribute name = true := by
    rw [isDeclarationAttribute, List.contains_iff_mem.mpr hname, Bool.true_or]
  rw [canonical, hb]
  simp only [Binding.render_other_zero, hattribute, if_true]

/-- A declaration is in canonical form unless its semantic is printed as an attribute. -/
theorem normalize_eq_iff {d : Declaration} (hd : d.WellFormed) :
    d.normalize = d.withoutSpan ↔ ¬ d.PrintedAsAttribute := by
  constructor
  · rintro hsame ⟨name, hname, hb⟩
    have hbinding := congrArg Declaration.binding hsame
    rw [normalize, canonical_of_printedAsAttribute hname hb, withoutSpan, withoutSpan, hb]
      at hbinding
    cases hbinding
  · intro h
    rw [normalize, canonical_of_not_printedAsAttribute hd h]

/-- A varying with such a semantic has no place, so that only system values are left. -/
theorem file_of_printedAsAttribute {d : Declaration} (hd : d.WellFormed) {stage : Stage}
    (hplace : d.placementProblem? stage = none) (h : d.PrintedAsAttribute) :
    d.file = .systemValue := by
  obtain ⟨name, -, hb⟩ := h
  exact file_of_other hd hplace hb

end Declaration

/-- The line of a printed declaration loses nothing as a comment. -/
theorem Excerpt.text_significant_printed {d : Declaration} (hd : d.WellFormed) (start : Nat) :
    (significant ⟨start, d.render⟩).text = Text.trim d.render := by
  have hcomment : ';' ∉ d.render := fun h => (Declaration.oneLine_render hd _ h).2 rfl
  have hbefore := (cut_nowhere (e := ⟨start, d.render⟩) hcomment).1
  exact congrArg Text.trim hbefore

/-- Every declaration of an accepted program is read back from its printed line, wherever the line
stands, and it is the same apart from its span unless its semantic is printed as an attribute. Then
it is the declaration of a system value, and the name of the semantic comes back as its first
attribute. -/
theorem FrontEnd.declaration_reads_back_iff (f : FrontEnd) (source : Text) (stage : Stage)
    (p : Program) (h : (f.compile source stage).1 = .ok p) (d : Declaration)
    (hd : d ∈ p.declarations) (start : Nat) :
    let line := Excerpt.significant ⟨start, d.render⟩
    ∃ d', line.readDeclaration line.splitWord.2 = .ok d' ∧
      line.readToken = .ok (.declaration d') ∧
      (d'.withoutSpan = d.withoutSpan ↔ ¬ d.PrintedAsAttribute) ∧
      ∀ name ∈ declarationAttributes, d.binding = some (.other name 0) →
        d.file = .systemValue ∧
        d'.withoutSpan =
          { d.withoutSpan with binding := none, attributes := name :: d.attributes } := by
  intro line
  rw [f.compile_fst, Program.ofSource_eq_ok] at h
  have hwf := (Program.parse_wellFormed h.1).declarations d hd
  obtain ⟨-, herrors, -⟩ := Program.errors_eq_nil_iff.mp h.2
  have hplace := (Program.declarationErrors_eq_nil_iff.mp herrors d hd).1
  have hline : line.text = Text.trim d.render := Excerpt.text_significant_printed hwf start
  refine ⟨{ d.canonical with span := line.span }, ?_, ?_, d.normalize_eq_iff hwf, ?_⟩
  · exact Excerpt.readDeclaration_printed hwf line (Excerpt.splitWord_declaration hline).2
  · exact Excerpt.readToken_declaration hwf hline
  · intro name hname hb
    refine ⟨d.file_of_printedAsAttribute hwf hplace ⟨name, hname, hb⟩, ?_⟩
    rw [Declaration.canonical_of_printedAsAttribute hname hb]
    rfl

/-- A declaration of a system value whose semantic has the name of an attribute. -/
def constantSemantic (index : Nat) : Declaration where
  file := .systemValue
  first := 0
  last := 0
  binding := some (.other "CONSTANT".toList index)
  span := ⟨5, 27⟩

/-- A fragment program with that declaration. -/
def declaresConstant (index : Nat) : Program where
  stage := .fragment
  declarations := [constantSemantic index]
  instructions := [{ opcode := "END".toList, operands := [], span := ⟨28, 34⟩ }]

theorem FrontEnd.declaration_reads_back_iff_declaresConstant :
    (FrontEnd.compile {} "FRAG\nDCL SV[0], CONSTANT[1]\n0: END" .fragment).1 =
      .ok (declaresConstant 1) ∧
    constantSemantic 1 ∈ (declaresConstant 1).declarations ∧
    ∃ d', (Excerpt.significant ⟨0, (constantSemantic 1).render⟩).readToken =
        .ok (.declaration d') ∧
      d'.withoutSpan = (constantSemantic 1).withoutSpan := by
  have h : (FrontEnd.compile {} "FRAG\nDCL SV[0], CONSTANT[1]\n0: END" .fragment).1 =
      .ok (declaresConstant 1) := rfl
  have hd : constantSemantic 1 ∈ (declaresConstant 1).declarations := List.mem_singleton_self _
  obtain ⟨d', -, hread, hsame, -⟩ := FrontEnd.declaration_reads_back_iff _ _ _ _ h _ hd 0
  refine ⟨h, hd, d', hread, hsame.mpr ?_⟩
  rintro ⟨name, -, hb⟩
  cases hb

/-- With an index of zero the semantic is lost. -/
theorem FrontEnd.declaration_not_read_back_declaresConstant :
    (FrontEnd.compile {} "FRAG\nDCL SV[0], CONSTANT[0]\n0: END" .fragment).1 =
      .ok (declaresConstant 0) ∧
    constantSemantic 0 ∈ (declaresConstant 0).declarations ∧
    ∃ d', (Excerpt.significant ⟨0, (constantSemantic 0).render⟩).readToken =
        .ok (.declaration d') ∧
      d'.binding = none ∧ d'.attributes = ["CONSTANT".toList] ∧
      d'.withoutSpan ≠ (constantSemantic 0).withoutSpan := by
  refine ⟨rfl, List.mem_singleton_self _, _, rfl, rfl, rfl, fun hsame => ?_⟩
  have hbinding := congrArg Declaration.binding hsame
  cases hbinding

end ShaderBackend
