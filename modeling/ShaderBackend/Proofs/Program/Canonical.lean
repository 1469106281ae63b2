import Mathlib.Data.List.Forall2
import ShaderBackend.Compile.Basic
import ShaderBackend.Proofs.Program.Placement
import ShaderBackend.Proofs.Program.Printed

/-!
The printed program is a canonical form. It is read back as the program that was printed, with the
spans of its own lines and with its declarations in canonical form, and nothing that is computed
from a program depends on either.
-/

namespace ShaderBackend

/-! ### What a token says -/

def Property.withoutSpan (p : Property) : Property :=
  { p with span := .dummy }

def Immediate.withoutSpan (i : Immediate) : Immediate :=
  { i with span := .dummy }

def Instruction.withoutSpan (i : Instruction) : Instruction :=
  { i with span := .dummy }

namespace Declaration

def withoutSpan (d : Declaration) : Declaration :=
  { d with span := .dummy }

def normalize (d : Declaration) : Declaration :=
  d.canonical.withoutSpan

/-- Either the declaration is canonical already, or its binding becomes the first attribute. -/
theorem canonical_cases (d : Declaration) :
    d.canonical = d ∨ ∃ b, d.binding = some b ∧ isDeclarationAttribute b.render = true ∧
      d.canonical = { d with binding := none, attributes := b.render :: d.attributes } := by
  unfold canonical
  split
  · rename_i b hb
    split
    · rename_i hattribute
      exact .inr ⟨b, hb, hattribute, rfl⟩
    · exact .inl rfl
  · exact .inl rfl

/-- No role is spelled like an attribute. -/
theorem not_isDeclarationAttribute_role (s : Semantic) (index : Nat) :
    isDeclarationAttribute (Binding.role s index).render = false := by
  have hname : ∀ s : Semantic, (∀ a ∈ declarationAttributes, ¬ s.name.isPrefixOf a = true) ∧
      s.name ≠ [] ∧ s.name.head? ≠ some 'A' := by
    intro s
    cases s <;> decide
  -- An index adds to the end of the name only, so it is enough to look at the beginning.
  obtain ⟨hwords, hne, hhead⟩ := hname s
  have htext : (Binding.role s index).render =
      s.name ++ if index = 0 then [] else bracketed index := rfl
  generalize (if index = 0 then [] else bracketed index) = rest at htext
  rw [htext, isDeclarationAttribute, Bool.or_eq_false_iff]
  constructor
  · rw [← Bool.not_eq_true, List.contains_iff_mem]
    intro hmem
    exact hwords _ hmem (List.isPrefixOf_iff_prefix.mpr (List.prefix_append _ _))
  · obtain ⟨c, name, heq⟩ := List.exists_cons_of_ne_nil hne
    have hc : ¬ 'A' = c := by
      rintro rfl
      exact hhead (by rw [heq, List.head?_cons])
    rw [heq]
    simp [List.isPrefixOf, hc]

theorem toRegister_normalize (d : Declaration) : d.normalize.toRegister = d.toRegister := by
  rcases d.canonical_cases with h | ⟨b, -, -, h⟩ <;> rw [normalize, h] <;> rfl

theorem render_normalize (d : Declaration) : d.normalize.render = d.render := by
  have hqualifiers : d.normalize.qualifiers = d.qualifiers := by
    rcases d.canonical_cases with h | ⟨b, hb, -, h⟩
    · rw [normalize, h]
      rfl
    · rw [normalize, h, qualifiers, qualifiers, hb]
      rfl
  have hrender : ∀ d : Declaration, d.render =
      "DCL ".toList ++ List.intercalate ", " (d.toRegister.render :: d.qualifiers) := fun _ => rfl
  rw [hrender, hrender, hqualifiers, toRegister_normalize]

theorem semantic?_normalize (d : Declaration) :
    d.normalize.binding.bind Binding.semantic? = d.binding.bind Binding.semantic? := by
  rcases d.canonical_cases with h | ⟨b, hb, hattribute, h⟩
  · rw [normalize, h]
    rfl
  · rw [normalize, h, hb]
    cases b with
    | role s index =>
        rw [not_isDeclarationAttribute_role] at hattribute
        cases hattribute
    | other name index => rfl

theorem base_normalize (d : Declaration) : d.normalize.base = d.base := by
  rcases d.canonical_cases with h | ⟨b, hb, hattribute, h⟩
  · rw [normalize, h]
    rfl
  · rw [normalize, h]
    cases b with
    | role s index =>
        rw [not_isDeclarationAttribute_role] at hattribute
        cases hattribute
    | other name index => simp only [base, withoutSpan, hb]

theorem varyings_normalize (stage : Stage) (d : Declaration) :
    d.normalize.varyings stage = d.varyings stage := by
  simp only [varyings, role, base_normalize, toRegister_normalize]

theorem normalize_withoutSpan (d : Declaration) : d.withoutSpan.normalize = d.normalize := by
  unfold normalize canonical withoutSpan
  dsimp only
  split
  · split <;> rfl
  · rfl

theorem normalize_normalize (d : Declaration) : d.normalize.normalize = d.normalize := by
  rcases d.canonical_cases with h | ⟨b, -, -, h⟩
  · have hd : d.normalize = d.withoutSpan := by rw [normalize, h]
    rw [hd, normalize_withoutSpan, hd]
  · have hd : d.normalize =
        { d with binding := none, attributes := b.render :: d.attributes, span := .dummy } := by
      rw [normalize, h]
      rfl
    rw [hd]
    rfl

/-- A declaration that has a place keeps it. -/
theorem placementProblem?_normalize {d : Declaration} {stage : Stage}
    (h : d.placementProblem? stage = none) : d.normalize.placementProblem? stage = none := by
  rcases d.canonical_cases with hd | ⟨b, -, -, hd⟩
  · rw [normalize, hd]
    exact h
  · rw [normalize, hd]
    exact ite_self none

end Declaration

/-! ### What a program says -/

namespace Program

def withoutSpans (p : Program) : Program where
  stage := p.stage
  properties := p.properties.map Property.withoutSpan
  declarations := p.declarations.map Declaration.withoutSpan
  immediates := p.immediates.map Immediate.withoutSpan
  instructions := p.instructions.map Instruction.withoutSpan

/-- What the printed program is read back as, apart from the spans. -/
def normalize (p : Program) : Program where
  stage := p.stage
  properties := p.properties.map Property.withoutSpan
  declarations := p.declarations.map Declaration.normalize
  immediates := p.immediates.map Immediate.withoutSpan
  instructions := p.instructions.map Instruction.withoutSpan

theorem normalize_withoutSpans (p : Program) : p.withoutSpans.normalize = p.normalize := by
  simp only [normalize, withoutSpans, List.map_map, Program.mk.injEq, true_and]
  exact ⟨rfl, List.map_congr_left fun d _ => d.normalize_withoutSpan, rfl, rfl⟩

theorem normalize_normalize (p : Program) : p.normalize.normalize = p.normalize := by
  simp only [normalize, List.map_map, Program.mk.injEq, true_and]
  exact ⟨rfl, List.map_congr_left fun d _ => d.normalize_normalize, rfl, rfl⟩

theorem render_normalize (p : Program) : p.normalize.render = p.render := by
  have hdeclarations : p.normalize.declarations.map Declaration.render =
      p.declarations.map Declaration.render := by
    rw [normalize, List.map_map]
    exact List.map_congr_left fun d _ => d.render_normalize
  have hproperties : p.normalize.properties.map Property.render =
      p.properties.map Property.render := by
    rw [normalize, List.map_map]
    rfl
  have himmediates : p.normalize.immediates.mapIdx Immediate.render =
      p.immediates.mapIdx Immediate.render := by
    apply List.ext_getElem?
    intro n
    rw [List.getElem?_mapIdx, List.getElem?_mapIdx, normalize, List.getElem?_map, Option.map_map]
    rfl
  have hinstructions : p.normalize.instructions.mapIdx Instruction.render =
      p.instructions.mapIdx Instruction.render := by
    apply List.ext_getElem?
    intro n
    rw [List.getElem?_mapIdx, List.getElem?_mapIdx, normalize, List.getElem?_map, Option.map_map]
    rfl
  rw [render, lines, hproperties, hdeclarations, himmediates, hinstructions]
  rfl

theorem property?_normalize (p : Program) (name : Text) :
    p.normalize.property? name = p.property? name := by
  rw [property?, normalize, ← List.map_reverse, List.find?_map, Option.map_map]
  rfl

theorem readsSystemValue_normalize (p : Program) (s : Semantic) :
    p.normalize.readsSystemValue s = p.readsSystemValue s := by
  simp only [readsSystemValue, normalize, List.any_map, Function.comp_def,
    Declaration.toRegister_normalize, Declaration.semantic?_normalize]

theorem varyings_normalize (p : Program) (file : RegisterFile) :
    p.normalize.varyings file = p.varyings file := by
  simp only [varyings, normalize, List.filter_map, List.flatMap_map, Function.comp_def,
    Declaration.toRegister_normalize, Declaration.varyings_normalize]

theorem interface_normalize (p : Program) (target : Nat) :
    p.normalize.interface target = p.interface target := by
  simp only [interface, varyings_normalize]
  rfl

theorem sharedMemory_normalize (p : Program) : p.normalize.sharedMemory = p.sharedMemory := by
  simp only [sharedMemory, propertyNumber?, property?_normalize]
  rfl

theorem stageParams_normalize (p : Program) (g : Generated) :
    p.normalize.stageParams g = p.stageParams g := by
  have hflag : ∀ name, p.normalize.flag name = p.flag name := by
    intro name
    simp only [flag, propertyNumber?, property?_normalize]
  have hdim : ∀ name, p.normalize.blockDim name = p.blockDim name := by
    intro name
    simp only [blockDim, propertyNumber?, property?_normalize]
  have hmode : p.normalize.tessMode = p.tessMode := by
    simp only [tessMode, tessDomain, tessSpacing, hflag, property?_normalize]
  have hstage : p.normalize.stage = p.stage := rfl
  simp only [stageParams, hflag, hdim, hmode, hstage, readsSystemValue_normalize,
    sharedMemory_normalize]

/-- A program that says the same as an accepted one is accepted, provided that its declarations
are canonical. -/
theorem errors_eq_nil_of_normalize {p q : Program} (h : q.withoutSpans = p.normalize)
    {stage : Stage} (herrors : p.errors stage = []) : q.errors stage = [] := by
  obtain ⟨hstage, hdeclarations, hinstructions⟩ := errors_eq_nil_iff.mp herrors
  rw [declarationErrors_eq_nil_iff] at hdeclarations
  refine errors_eq_nil_iff.mpr ⟨?_, declarationErrors_eq_nil_iff.mpr fun d' hd' => ?_, ?_⟩
  · exact (congrArg Program.stage h).trans hstage
  · have hsame : q.declarations.map Declaration.withoutSpan =
        p.declarations.map Declaration.normalize := congrArg Program.declarations h
    have hmem : d'.withoutSpan ∈ p.declarations.map Declaration.normalize :=
      hsame ▸ List.mem_map_of_mem hd'
    -- The declaration of `p` that this one is the canonical form of has no problem.
    obtain ⟨d, hd, heq⟩ := List.mem_map.mp hmem
    obtain ⟨hplace, hcompute⟩ := hdeclarations d hd
    have hplace' := Declaration.placementProblem?_normalize hplace
    have hfile := congrArg Register.file d.toRegister_normalize
    rw [heq] at hplace' hfile
    exact ⟨hplace', by rw [← hfile] at hcompute; exact hcompute⟩
  · intro hnil
    have hlength := congrArg (List.length ·.instructions) h
    simp only [withoutSpans, normalize, List.length_map, hnil, List.length_nil] at hlength
    exact hinstructions (List.eq_nil_of_length_eq_zero hlength.symm)

/-- Whatever does not see the spans and the canonical form takes the same value at both programs. -/
theorem eq_of_withoutSpans_eq_normalize {p q : Program} (h : q.withoutSpans = p.normalize)
    {α : Type} (f : Program → α) (hf : ∀ p, f p.normalize = f p) : f q = f p := by
  rw [← hf q, ← q.normalize_withoutSpans, h, normalize_normalize, hf]

/-! ### Reading the printed program -/

/-- The tokens of a program in the order in which they are printed. -/
def tokens (p : Program) : List Token :=
  p.properties.map .property ++ p.declarations.map .declaration ++ p.immediates.map .immediate ++
    p.instructions.map .instruction

end Program

namespace Token

def withoutSpan : Token → Token
  | property p => .property p.withoutSpan
  | declaration d => .declaration d.withoutSpan
  | immediate i => .immediate i.withoutSpan
  | instruction i => .instruction i.withoutSpan

def normalize : Token → Token
  | property p => .property p.withoutSpan
  | declaration d => .declaration d.normalize
  | immediate i => .immediate i.withoutSpan
  | instruction i => .instruction i.withoutSpan

/-- A line that is read back as a token, apart from the span. -/
def Printed (line : Text) (t : Token) : Prop :=
  ∀ e : Excerpt, e.text = Text.trim line →
    ∃ t', e.readToken = .ok t' ∧ t'.withoutSpan = t.normalize

end Token

namespace Program

theorem ofTokens_withoutSpan (stage : Stage) (tokens : List Token) :
    (ofTokens stage tokens).withoutSpans = ofTokens stage (tokens.map Token.withoutSpan) := by
  simp only [ofTokens, withoutSpans, List.map_filterMap, List.filterMap_map, Program.mk.injEq,
    true_and]
  refine ⟨?_, ?_, ?_, ?_⟩
  all_goals
    apply List.filterMap_congr
    intro t _
    cases t <;> rfl

theorem ofTokens_normalize (p : Program) :
    ofTokens p.stage (p.tokens.map Token.normalize) = p.normalize := by
  simp [ofTokens, tokens, normalize, List.filterMap_append, List.filterMap_map, Function.comp_def,
    Token.normalize, Token.property?, Token.declaration?, Token.immediate?, Token.instruction?]

/-- The lines of the canonical form after the header. -/
def tokenLines (p : Program) : List Text :=
  p.properties.map Property.render ++ p.declarations.map Declaration.render ++
    p.immediates.mapIdx Immediate.render ++ p.instructions.mapIdx Instruction.render

theorem lines_eq (p : Program) : p.lines = p.stage.processor :: p.tokenLines := rfl

theorem forall₂_mapIdx {α β γ : Type} {R : β → γ → Prop} {f : Nat → α → β} {g : Nat → α → γ}
    {l : List α} (h : ∀ n, ∀ a ∈ l, R (f n a) (g n a)) :
    List.Forall₂ R (l.mapIdx f) (l.mapIdx g) := by
  induction l generalizing f g with
  | nil => exact .nil
  | cons a l ih =>
      rw [List.mapIdx_cons, List.mapIdx_cons]
      exact .cons (h 0 a (by simp)) (ih fun n a ha => h (n + 1) a (by simp [ha]))

theorem mapIdx_const {α β : Type} (g : α → β) (l : List α) : (l.mapIdx fun _ => g) = l.map g :=
  List.mapIdx_eq_iff.mpr fun _ => List.getElem?_map

theorem forall₂_printed {p : Program} (hp : p.WellFormed) :
    List.Forall₂ Token.Printed p.tokenLines p.tokens := by
  refine List.rel_append (List.rel_append (List.rel_append ?_ ?_) ?_) ?_
  · rw [List.forall₂_map_left_iff, List.forall₂_map_right_iff, List.forall₂_same]
    intro x hx e he
    exact ⟨_, Excerpt.readToken_property (hp.properties x hx) he, rfl⟩
  · rw [List.forall₂_map_left_iff, List.forall₂_map_right_iff, List.forall₂_same]
    intro d hd e he
    exact ⟨_, Excerpt.readToken_declaration (hp.declarations d hd) he, rfl⟩
  · rw [← mapIdx_const]
    refine forall₂_mapIdx fun n i hi e he => ?_
    exact ⟨_, Excerpt.readToken_immediate (hp.immediates i hi) he, rfl⟩
  · rw [← mapIdx_const]
    refine forall₂_mapIdx fun n i hi e he => ?_
    exact ⟨_, Excerpt.readToken_instruction (hp.instructions i hi) he, rfl⟩

theorem exists_tokens_of_printed {lines : List Text} {ts : List Token}
    (h : List.Forall₂ Token.Printed lines ts) {body : List Excerpt}
    (hbody : body.map (·.text) = lines.map Text.trim) :
    ∃ tokens : List Token, body.map Excerpt.readToken = tokens.map .ok ∧
      tokens.map Token.withoutSpan = ts.map Token.normalize := by
  induction h generalizing body with
  | nil =>
      obtain rfl : body = [] := by simpa using hbody
      exact ⟨[], rfl, rfl⟩
  | cons hprinted _ ih =>
      obtain ⟨e, body, rfl, he, hrest⟩ := List.map_eq_cons_iff.mp hbody
      obtain ⟨t', hread, ht'⟩ := hprinted e he
      obtain ⟨tokens, htokens, hsame⟩ := ih hrest
      refine ⟨t' :: tokens, ?_, ?_⟩
      · rw [List.map_cons, hread, htokens, List.map_cons]
      · rw [List.map_cons, List.map_cons, ht', hsame]

end Program

/-- The printed line of a token is not blank. -/
theorem Token.Printed.trim_ne_nil {line : Text} {t : Token} (h : Printed line t) :
    Text.trim line ≠ [] := by
  intro hnil
  obtain ⟨t', hread, -⟩ := h ⟨0, []⟩ hnil.symm
  cases hread

namespace Text

theorem oneLine_append {s t : Text} : OneLine (s ++ t) ↔ s.OneLine ∧ t.OneLine :=
  List.forall_mem_append

theorem oneLine_intercalate {ts : List Text} (h : ∀ t ∈ ts, t.OneLine) :
    OneLine (List.intercalate ", ".toList ts) := by
  have hseparator : OneLine ", " := by unfold OneLine; decide
  induction ts with
  | nil => simp [OneLine]
  | cons t ts ih =>
      cases ts with
      | nil =>
        rw [List.intercalate_singleton]
        exact h t (by simp)
      | cons t' ts =>
        rw [List.intercalate_cons_cons, oneLine_append, oneLine_append]
        exact ⟨⟨h t (by simp), hseparator⟩, ih fun x hx => h x (by simp [hx])⟩

theorem oneLine_of_isRegisterChar {t : Text} (h : ∀ c ∈ t, isRegisterChar c = true) :
    t.OneLine :=
  fun c hc => (isRegisterChar_spec (h c hc)).2.2

theorem oneLine_decimal (n : Nat) : (decimal n).OneLine :=
  oneLine_of_isRegisterChar fun _ hc => isRegisterChar_of_mem_decimal hc

theorem oneLine_bracketed (n : Nat) : OneLine (bracketed n) :=
  oneLine_of_isRegisterChar fun _ hc => isRegisterChar_of_mem_bracketed hc

end Text

theorem Property.oneLine_render {p : Property} (hp : p.WellFormed) : p.render.OneLine := by
  have hkeyword : Text.OneLine "PROPERTY " := by unfold Text.OneLine; decide
  have hspace : Text.OneLine " " := by unfold Text.OneLine; decide
  exact Text.oneLine_append.mpr ⟨Text.oneLine_append.mpr
    ⟨Text.oneLine_append.mpr ⟨hkeyword, hp.oneLine.1⟩, hspace⟩, hp.oneLine.2⟩

theorem Declaration.oneLine_render {d : Declaration} (hd : d.WellFormed) : d.render.OneLine := by
  have hkeyword : Text.OneLine "DCL " := by unfold Text.OneLine; decide
  refine Text.oneLine_append.mpr ⟨hkeyword, Text.oneLine_intercalate fun t ht => ?_⟩
  rcases List.mem_cons.mp ht with rfl | ht
  · exact Text.oneLine_of_isRegisterChar fun _ hc => isRegisterChar_of_mem_register hc
  · rcases List.mem_append.mp ht with ht | ht
    · obtain ⟨b, hb, rfl⟩ := List.mem_map.mp ht
      have hb := (hd.binding b (by simpa using hb)).2
      exact Text.oneLine_of_isRegisterChar fun _ hc => isRegisterChar_of_mem_binding hb hc
    · exact (hd.attributes t ht).2

theorem Immediate.oneLine_render {i : Immediate} (hi : i.WellFormed) (n : Nat) :
    (i.render n).OneLine := by
  have hkeyword : Text.OneLine "IMM" := by unfold Text.OneLine; decide
  have hspace : Text.OneLine " " := by unfold Text.OneLine; decide
  have hopen : Text.OneLine " \x7b " := by unfold Text.OneLine; decide
  have hclose : Text.OneLine "\x7d" := by unfold Text.OneLine; decide
  have hkinds : ∀ kind ∈ immediateKinds, kind.OneLine := by unfold Text.OneLine; decide
  have hvalues := Text.oneLine_intercalate fun v hv => (hi.values v hv).2.2.2
  exact Text.oneLine_append.mpr ⟨Text.oneLine_append.mpr ⟨Text.oneLine_append.mpr
    ⟨Text.oneLine_append.mpr ⟨Text.oneLine_append.mpr ⟨Text.oneLine_append.mpr
      ⟨hkeyword, Text.oneLine_bracketed n⟩, hspace⟩, hkinds _ hi.kind⟩, hopen⟩, hvalues⟩, hclose⟩

theorem Instruction.oneLine_render {i : Instruction} (hi : i.WellFormed) (n : Nat) :
    (i.render n).OneLine := by
  have hcolon : Text.OneLine ": " := by unfold Text.OneLine; decide
  have hspace : Text.OneLine [' '] := by unfold Text.OneLine; decide
  have hpad : Text.OneLine (List.replicate (3 - (Text.decimal n).length) ' ') :=
    hspace.mono (List.replicate_subset_singleton _ _)
  have hopcode : i.opcode.OneLine := by
    refine Text.oneLine_of_isRegisterChar fun c hc => ?_
    rcases (isOpcode_forall hi.opcode).2 c hc with h | h <;> simp [isRegisterChar, h]
  have hoperands : i.operandText.OneLine := by
    unfold operandText
    split
    · simp [Text.OneLine]
    · exact Text.oneLine_append.mpr
        ⟨hspace, Text.oneLine_intercalate fun o ho => (hi.operands o ho).2⟩
  exact Text.oneLine_append.mpr ⟨Text.oneLine_append.mpr ⟨Text.oneLine_append.mpr
    ⟨Text.oneLine_append.mpr ⟨hpad, Text.oneLine_decimal n⟩, hcolon⟩, hopcode⟩, hoperands⟩

theorem Stage.processor_spec (stage : Stage) :
    stage.processor.OneLine ∧ stage.processor ≠ [] ∧
      Text.trim stage.processor = stage.processor ∧
      Stage.ofProcessor? stage.processor = some stage := by
  unfold Text.OneLine
  cases stage <;> decide

namespace Excerpt

theorem map_text_significantLines (source : Text) :
    (significantLines source).map (·.text) =
      ((List.splitOn '\n' source).map fun t => Text.trim (t.takeWhile (· != ';'))).filter
        (! ·.isEmpty) := by
  rw [← map_text_lines, List.map_map, significantLines, List.filter_map, List.filter_map,
    List.map_map]
  rfl

theorem map_text_significantLines_unlines {lines : List Text}
    (h : ∀ line ∈ lines, line.OneLine ∧ Text.trim line ≠ []) :
    (significantLines (Text.unlines lines)).map (·.text) = lines.map Text.trim := by
  have hfeed : ∀ line ∈ lines, '\n' ∉ line := fun line hline hc => ((h line hline).1 _ hc).1 rfl
  have hcomment : ∀ line ∈ lines, Text.trim (line.takeWhile (· != ';')) = Text.trim line := by
    intro line hline
    rw [List.takeWhile_eq_self_iff.mpr fun c hc => by simpa using ((h line hline).1 c hc).2]
  have hsome : ∀ t ∈ lines.map Text.trim, (! t.isEmpty) = true := by
    intro t ht
    obtain ⟨line, hline, rfl⟩ := List.mem_map.mp ht
    simpa using (h line hline).2
  rw [map_text_significantLines, Text.splitOn_unlines hfeed, List.map_append,
    List.map_congr_left hcomment, List.filter_append, List.filter_eq_self.mpr hsome]
  exact List.append_nil _

end Excerpt

namespace Program

theorem oneLine_of_mem_tokenLines {p : Program} (hp : p.WellFormed) {line : Text}
    (h : line ∈ p.tokenLines) : line.OneLine := by
  simp only [tokenLines, List.mem_append, List.mem_map, List.mem_mapIdx] at h
  rcases h with ((⟨x, hx, rfl⟩ | ⟨d, hd, rfl⟩) | ⟨n, hn, rfl⟩) | ⟨n, hn, rfl⟩
  · exact Property.oneLine_render (hp.properties x hx)
  · exact Declaration.oneLine_render (hp.declarations d hd)
  · exact Immediate.oneLine_render (hp.immediates _ (List.getElem_mem hn)) n
  · exact Instruction.oneLine_render (hp.instructions _ (List.getElem_mem hn)) n

theorem parse_of_lines {source : Text} {header : Excerpt} {body : List Excerpt} {stage : Stage}
    {tokens : List Token} (hlines : Excerpt.significantLines source = header :: body)
    (hstage : Stage.ofProcessor? header.text = some stage)
    (htokens : body.map Excerpt.readToken = tokens.map .ok) :
    parse source = .ok (ofTokens stage tokens) := by
  have hproblems : body.flatMap (·.readToken.problems) = [] := by
    rw [← List.flatMap_map Excerpt.readToken Reading.problems, htokens]
    simp
  have hvalues : body.filterMap (·.readToken.value) = tokens := by
    rw [← Function.comp_def Reading.value, ← List.filterMap_map, htokens]
    simp [List.filterMap_map]
  rw [parse_eq_of_header hlines hstage, hproblems, hvalues]
  rfl

/-- The lines of the printed program that say something are all its lines. -/
theorem significantLines_render {p : Program} (hp : p.WellFormed) :
    ∃ header body, Excerpt.significantLines p.render = header :: body ∧
      header.text = p.stage.processor ∧ body.map (·.text) = p.tokenLines.map Text.trim := by
  obtain ⟨hline, hne, htrim, -⟩ := p.stage.processor_spec
  -- Blank lines are skipped, but a line that reads back as a token is not blank.
  have hsome : ∀ line ∈ p.tokenLines, Text.trim line ≠ [] :=
    ((List.forall₂_and_left _ _).mp
      ((forall₂_printed hp).imp fun _ _ ht => ⟨ht.trim_ne_nil, ht⟩)).1
  have hall : ∀ line ∈ p.lines, line.OneLine ∧ Text.trim line ≠ [] := by
    rw [lines_eq]
    intro line hmem
    rcases List.mem_cons.mp hmem with rfl | hmem
    · exact ⟨hline, by rw [htrim]; exact hne⟩
    · exact ⟨oneLine_of_mem_tokenLines hp hmem, hsome line hmem⟩
  have htexts := Excerpt.map_text_significantLines_unlines hall
  rw [lines_eq, List.map_cons, htrim] at htexts
  obtain ⟨header, body, hlines, hheader, hbody⟩ := List.map_eq_cons_iff.mp htexts
  exact ⟨header, body, hlines, hheader, hbody⟩

/-- The printed program is read back, apart from spans, in its canonical form. -/
theorem parse_render {p : Program} (hp : p.WellFormed) :
    ∃ q, parse p.render = .ok q ∧ q.withoutSpans = p.normalize := by
  obtain ⟨-, -, -, hstage⟩ := p.stage.processor_spec
  obtain ⟨header, body, hlines, hheader, hbody⟩ := significantLines_render hp
  obtain ⟨tokens, htokens, hsame⟩ := exists_tokens_of_printed (forall₂_printed hp) hbody
  refine ⟨_, parse_of_lines hlines (by rw [hheader]; exact hstage) htokens, ?_⟩
  rw [ofTokens_withoutSpan, hsame, ofTokens_normalize]

theorem request_render_normalize (p : Program) (i : Interface) (optLevel : Nat) :
    Request.render ⟨i, p.normalize, optLevel⟩ = Request.render ⟨i, p, optLevel⟩ := by
  simp only [Request.render, Request.headLines, Request.bases, sharedMemory_normalize,
    render_normalize]
  rfl

end Program

/-- The canonical form of an accepted program is accepted, is its own canonical form, and says the
same to everything that comes after the front-end. -/
theorem FrontEnd.compile_render (f f' : FrontEnd) (source : Text) (stage : Stage) (p : Program)
    (h : (f.compile source stage).1 = .ok p) :
    ∃ q, (f'.compile p.render stage).1 = .ok q ∧ q.render = p.render ∧
      (∀ target, q.interface target = p.interface target) ∧
      (∀ name, q.property? name = p.property? name) ∧
      (∀ semantic, q.readsSystemValue semantic = p.readsSystemValue semantic) ∧
      (∀ g, q.stageParams g = p.stageParams g) ∧
      (∀ options, ∃ r r', p.request options = .ok r ∧ q.request options = .ok r' ∧
        r'.render = r.render) := by
  rw [compile_fst, Program.ofSource_eq_ok] at h
  obtain ⟨hparse, herrors⟩ := h
  have hp := Program.parse_wellFormed hparse
  obtain ⟨q, hq, hsame⟩ := Program.parse_render hp
  have hkept : ∀ {α : Type} (f : Program → α), (∀ p, f p.normalize = f p) → f q = f p :=
    Program.eq_of_withoutSpans_eq_normalize hsame
  have hinterface : ∀ target, q.interface target = p.interface target := fun target =>
    hkept (·.interface target) fun p => p.interface_normalize target
  refine ⟨q, ?_, ?_, hinterface, fun name => ?_, fun semantic => ?_, fun g => ?_,
    fun options => ?_⟩
  · rw [compile_fst, Program.ofSource_eq_ok]
    exact ⟨hq, Program.errors_eq_nil_of_normalize hsame herrors⟩
  · exact hkept Program.render Program.render_normalize
  · exact hkept (·.property? name) fun p => p.property?_normalize name
  · exact hkept (·.readsSystemValue semantic) fun p => p.readsSystemValue_normalize semantic
  · exact hkept (·.stageParams g) fun p => p.stageParams_normalize g
  · obtain ⟨i, hi⟩ := Program.assignSlots_of_errors_eq_nil hp herrors options.target
    refine ⟨⟨i, p, options.optLevel⟩, ⟨i, q, options.optLevel⟩, ?_, ?_, ?_⟩
    · rw [Program.request, hi]
      rfl
    · rw [Program.request, hinterface, hi]
      rfl
    · exact hkept (Request.render ⟨i, ·, options.optLevel⟩) fun p =>
        p.request_render_normalize i options.optLevel

/-- A system value with a semantic that is spelled like an attribute, and an operand that closes a
bracket it did not open. -/
def oddlySpelled : Program where
  stage := .fragment
  declarations := [{
    file := .systemValue, first := 0, last := 0, binding := some (.other "CONSTANT".toList 0)
    attributes := ["LOCAL".toList], span := ⟨14, 43⟩ }]
  instructions := [
    { opcode := "MOV".toList, operands := ["a".toList, "b),c".toList], span := ⟨44, 58⟩ },
    { opcode := "END".toList, operands := [], span := ⟨59, 62⟩ }]

theorem FrontEnd.compile_render_oddlySpelled :
    (FrontEnd.compile {} "FRAG ; header\nDCL SV[0], CONSTANT[0], LOCAL\n7: MOV a, b),c\nEND"
      .fragment).1 = .ok oddlySpelled ∧
    oddlySpelled.render =
      "FRAG\nDCL SV[0], CONSTANT, LOCAL\n  0: MOV a, b),c\n  1: END\n".toList ∧
    ∃ q, (FrontEnd.compile {} oddlySpelled.render .fragment).1 = .ok q ∧
      q.render = oddlySpelled.render := by
  have h : (FrontEnd.compile {} "FRAG ; header\nDCL SV[0], CONSTANT[0], LOCAL\n7: MOV a, b),c\nEND"
      .fragment).1 = .ok oddlySpelled := rfl
  obtain ⟨q, hq, hrender, -⟩ := FrontEnd.compile_render {} {} _ _ _ h
  exact ⟨h, rfl, q, hq, hrender⟩

end ShaderBackend
