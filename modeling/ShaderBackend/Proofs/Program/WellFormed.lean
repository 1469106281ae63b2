import ShaderBackend.Program.Check
import ShaderBackend.Proofs.Program.Inside
import ShaderBackend.Proofs.Text.Excerpt
import ShaderBackend.Proofs.Text.Number

/-!
What is true of every token that was read, and so of every program: numbers are 32-bit, ranges are
not empty, names are words, and the items of a list are items of a list. All of it is about what a
token says, and none about where it stood.
-/

namespace ShaderBackend

/-- A text that can stand on a line: nothing in it ends the line or starts a comment. -/
def Text.OneLine (t : Text) : Prop :=
  ∀ c ∈ t, c ≠ '\n' ∧ c ≠ ';'

theorem Text.OneLine.mono {s t : Text} (ht : t.OneLine) (h : s ⊆ t) : s.OneLine :=
  fun c hc => ht c (h hc)

/-- A word: not empty, and without blanks. -/
structure Text.IsWord (t : Text) : Prop where
  ne_nil : t ≠ []
  not_blank : ∀ c ∈ t, isBlank c = false

structure Register.WellFormed (r : Register) : Prop where
  first_le_last : r.first ≤ r.last
  last_le : r.last ≤ maxNumber
  dimension_le : ∀ n ∈ r.dimension, n ≤ maxNumber
  mask_ne_zero : r.mask ≠ 0
  mask_lt : r.mask.toNat < 16

/-- A binding that its own name and index determine. -/
structure Binding.WellFormed (b : Binding) : Prop where
  name : isSemanticName b.name = true
  index_le : b.index ≤ maxSemanticIndex
  ofName : Binding.ofName b.name b.index = b

structure Property.WellFormed (p : Property) : Prop where
  name : p.name.IsWord
  value : p.value.IsWord
  oneLine : p.name.OneLine ∧ p.value.OneLine

/-- Where a semantic could stand and none does, an attribute stands in its place. -/
structure Declaration.WellFormed (d : Declaration) : Prop where
  register : d.toRegister.WellFormed
  varying : d.file.isVarying = true → d.last < maxVaryingRegisters
  binding : ∀ b ∈ d.binding, d.file.hasSemantic = true ∧ b.WellFormed
  unbound : d.binding = none → d.file.hasSemantic = true →
    ∀ a ∈ d.attributes.head?, isDeclarationAttribute a = true
  items : d.attributes = [] ∨ Text.Items d.attributes
  attributes : ∀ a ∈ d.attributes, a.Trimmed ∧ a.OneLine

structure Immediate.WellFormed (i : Immediate) : Prop where
  kind : i.kind ∈ immediateKinds
  values_ne_nil : i.values ≠ []
  length_le : i.values.length ≤ 4
  values : ∀ v ∈ i.values, v ≠ [] ∧ v.Trimmed ∧ ',' ∉ v ∧ v.OneLine

/-- A single empty operand is no operand. -/
structure Instruction.WellFormed (i : Instruction) : Prop where
  opcode : isOpcode i.opcode = true
  items : i.operands = [] ∨ Text.Items i.operands ∧ i.operands ≠ [[]]
  operands : ∀ o ∈ i.operands, o.Trimmed ∧ o.OneLine

def Token.WellFormed : Token → Prop
  | property p => p.WellFormed
  | declaration d => d.WellFormed
  | immediate i => i.WellFormed
  | instruction i => i.WellFormed

namespace Token

def property? : Token → Option Property
  | property p => some p
  | _ => none

def declaration? : Token → Option Declaration
  | declaration d => some d
  | _ => none

def immediate? : Token → Option Immediate
  | immediate i => some i
  | _ => none

def instruction? : Token → Option Instruction
  | instruction i => some i
  | _ => none

end Token

theorem Token.eq_property {t : Token} {p : Property} (h : t.property? = some p) :
    t = .property p := by
  cases t <;> cases h
  rfl

theorem Token.eq_declaration {t : Token} {d : Declaration} (h : t.declaration? = some d) :
    t = .declaration d := by
  cases t <;> cases h
  rfl

theorem Token.eq_immediate {t : Token} {i : Immediate} (h : t.immediate? = some i) :
    t = .immediate i := by
  cases t <;> cases h
  rfl

theorem Token.eq_instruction {t : Token} {i : Instruction} (h : t.instruction? = some i) :
    t = .instruction i := by
  cases t <;> cases h
  rfl

structure Program.WellFormed (p : Program) : Prop where
  properties : ∀ x ∈ p.properties, x.WellFormed
  declarations : ∀ d ∈ p.declarations, d.WellFormed
  immediates : ∀ i ∈ p.immediates, i.WellFormed
  instructions : ∀ i ∈ p.instructions, i.WellFormed

/-! ### Names -/

/-- A table that gives every value under its own name is searched for names only. -/
theorem name_of_lookup {α : Type} {table : List (Text × α)} {name : α → Text}
    (h : ∀ entry ∈ table, name entry.2 = entry.1) {t : Text} {a : α}
    (ha : table.lookup t = some a) : name a = t := by
  obtain ⟨before, after, htable, -⟩ := List.lookup_eq_some_iff.mp ha
  exact h (t, a) (by simp [htable])

theorem Semantic.name_of_ofName? {t : Text} {s : Semantic} (h : ofName? t = some s) : s.name = t :=
  name_of_lookup (by decide) h

/-- A name reads back as its role, except that the depth is read as the position. -/
theorem Semantic.ofName?_name (s : Semantic) :
    ofName? s.name = some (if s = .fragDepth then .position else s) := by
  cases s <;> decide

theorem RegisterFile.name_of_ofName? {t : Text} {file : RegisterFile} (h : ofName? t = some file) :
    file.name = t :=
  name_of_lookup (by decide) h

theorem RegisterFile.ofName?_name (file : RegisterFile) : ofName? file.name = some file := by
  cases file <;> decide

namespace Excerpt

/-! ### Registers -/

theorem readNumber_le {e : Excerpt} {n : Nat} (h : e.readNumber = .ok n) : n ≤ maxNumber := by
  unfold readNumber at h
  split at h
  · rename_i m hm
    cases h
    exact Text.le_maxNumber_of_readNumber? hm
  · cases h

theorem readRange_le {e : Excerpt} {first last : Nat} (h : e.readRange = .ok (first, last)) :
    first ≤ maxNumber ∧ last ≤ maxNumber := by
  unfold readRange at h
  split at h
  · simp only [Reading.bind_eq_ok_iff] at h
    obtain ⟨a, ha, b, hb, h⟩ := h
    cases h
    exact ⟨readNumber_le ha, readNumber_le hb⟩
  · simp only [Reading.bind_eq_ok_iff] at h
    obtain ⟨a, ha, h⟩ := h
    cases h
    exact ⟨readNumber_le ha, readNumber_le ha⟩

theorem splitGroups_le {e range : Excerpt} {groups : List Excerpt} {dimension : Option Nat}
    (h : e.splitGroups groups = .ok (dimension, range)) : ∀ n ∈ dimension, n ≤ maxNumber := by
  unfold splitGroups at h
  split at h
  · cases h
    simp
  · simp only [Reading.bind_eq_ok_iff] at h
    obtain ⟨n, hn, h⟩ := h
    cases h
    simpa using readNumber_le hn
  · cases h

theorem componentBit?_lt {c : Char} {bit : Nat} (h : componentBit? c = some bit) : bit < 4 := by
  unfold componentBit? at h
  split at h <;> cases h <;> decide

theorem readComponents_lt {whole : Excerpt} {t : Text} {least : Nat} {mask : UInt8}
    (h : whole.readComponents least t = .ok mask) : mask.toNat < 16 := by
  induction t generalizing least mask with
  | nil =>
      cases h
      decide
  | cons c t ih =>
      rw [readComponents] at h
      split at h
      · cases h
      · rename_i bit hbit
        split at h
        · cases h
        · obtain ⟨rest, hrest, h⟩ := Reading.bind_eq_ok_iff.mp h
          cases h
          have hone : ∀ k < 4, ((1 : UInt8) <<< UInt8.ofNat k).toNat < 2 ^ 4 := by decide
          rw [UInt8.toNat_or]
          exact Nat.or_lt_two_pow (ih hrest) (hone bit (componentBit?_lt hbit))

theorem readMask_spec {e : Excerpt} {mask : UInt8} (h : e.readMask = .ok mask) :
    mask ≠ 0 ∧ mask.toNat < 16 := by
  unfold readMask at h
  obtain ⟨m, hm, h⟩ := Reading.bind_eq_ok_iff.mp h
  split at h
  · cases h
  · rename_i hne
    cases h
    exact ⟨hne, readComponents_lt hm⟩

theorem readSuffix_spec {e : Excerpt} {mask : UInt8} (h : e.readSuffix = .ok mask) :
    mask ≠ 0 ∧ mask.toNat < 16 := by
  unfold readSuffix at h
  split at h
  · cases h
    decide
  · exact readMask_spec h
  · cases h

theorem readRegister_eq_ok_iff {e : Excerpt} {r : Register} :
    e.readRegister = .ok r ↔
      (e.startingAt '[').isEmpty = false ∧
      RegisterFile.ofName? (e.before '[').text = some r.file ∧
      ∃ groups suffix range,
        (e.startingAt '[').readGroups (e.startingAt '[').text.length = .ok (groups, suffix) ∧
        e.splitGroups groups = .ok (r.dimension, range) ∧
        range.readRange = .ok (r.first, r.last) ∧ r.first ≤ r.last ∧
        suffix.readSuffix = .ok r.mask := by
  unfold readRegister
  constructor
  · intro h
    dsimp only at h
    split at h
    · cases h
    · rename_i hopen
      split at h
      · cases h
      · rename_i file hfile
        simp only [Reading.bind_eq_ok_iff] at h
        obtain ⟨⟨groups, suffix⟩, hgroups, ⟨dimension, range⟩, hdimension, ⟨first, last⟩, hrange,
          h⟩ := h
        split at h
        · cases h
        · rename_i hle
          obtain ⟨mask, hmask, h⟩ := Reading.bind_eq_ok_iff.mp h
          cases h
          exact ⟨Bool.eq_false_iff.mpr hopen, hfile, groups, suffix, range, hgroups, hdimension,
            hrange, Nat.le_of_not_lt hle, hmask⟩
  · rintro ⟨hopen, hfile, groups, suffix, range, hgroups, hdimension, hrange, hle, hmask⟩
    simp only [hopen, Bool.false_eq_true, if_false, hfile, hgroups, hdimension, hrange, hmask,
      Reading.ok_bind, if_neg (Nat.not_lt.mpr hle)]
    rfl

theorem readRegister_wellFormed {e : Excerpt} {r : Register} (h : e.readRegister = .ok r) :
    r.WellFormed := by
  obtain ⟨-, -, groups, suffix, range, -, hdimension, hrange, hle, hmask⟩ :=
    readRegister_eq_ok_iff.mp h
  exact ⟨hle, (readRange_le hrange).2, splitGroups_le hdimension, (readSuffix_spec hmask).1,
    (readSuffix_spec hmask).2⟩

/-! ### Declarations -/

theorem binding_ofName_name (name : Text) (index : Nat) :
    (Binding.ofName name index).name = name ∧ (Binding.ofName name index).index = index := by
  unfold Binding.ofName
  split
  · rename_i s hs
    exact ⟨Semantic.name_of_ofName? hs, rfl⟩
  · exact ⟨rfl, rfl⟩

theorem readSemanticIndex_le {whole bracket : Excerpt} {index : Nat}
    (h : whole.readSemanticIndex bracket = .ok index) : index ≤ maxSemanticIndex := by
  unfold readSemanticIndex at h
  split at h
  · cases h
    decide
  · simp only at h
    split at h
    · simp only [Reading.bind_eq_ok_iff] at h
      obtain ⟨n, -, h⟩ := h
      split at h
      · cases h
      · rename_i hle
        cases h
        exact Nat.le_of_not_lt hle
    · cases h

theorem readSemantic_wellFormed {e : Excerpt} {b : Binding} (h : e.readSemantic = .ok b) :
    b.WellFormed := by
  unfold readSemantic at h
  simp only [Reading.bind_eq_ok_iff] at h
  obtain ⟨index, hindex, h⟩ := h
  split at h
  · rename_i hname
    cases h
    obtain ⟨hn, hi⟩ := binding_ofName_name (e.before '[').text index
    exact ⟨by rw [hn]; exact hname, by rw [hi]; exact readSemanticIndex_le hindex,
      by rw [hn, hi]⟩
  · cases h

/-- A semantic was read from the first item, or there is none and the items are attributes. -/
theorem readBinding_cases {file : RegisterFile} {items attributes : List Excerpt}
    {binding : Option Binding} (h : readBinding file items = .ok (binding, attributes)) :
    (∃ item b, items = item :: attributes ∧ binding = some b ∧ file.hasSemantic = true ∧
        item.readSemantic = .ok b) ∨
      (attributes = items ∧ binding = none ∧
        (file.hasSemantic = true →
          ∀ item ∈ items.head?, isDeclarationAttribute item.text = true)) := by
  unfold readBinding at h
  split at h
  · cases h
    exact .inr ⟨rfl, rfl, by simp⟩
  · rename_i item rest
    split at h
    · rename_i hsem
      simp only [Reading.bind_eq_ok_iff] at h
      obtain ⟨b, hb, h⟩ := h
      cases h
      exact .inl ⟨item, b, rfl, rfl, by simp_all, hb⟩
    · rename_i hsem
      cases h
      refine .inr ⟨rfl, rfl, fun hfile => ?_⟩
      simpa [hfile] using hsem

theorem readDeclaration_eq_ok_iff {line rest : Excerpt} {d : Declaration} :
    line.readDeclaration rest = .ok d ↔
      ∃ item items attributes, rest.splitTopLevel = item :: items ∧ item.isEmpty = false ∧
        item.readRegister = .ok d.toRegister ∧
        (d.file.isVarying = true → d.last < maxVaryingRegisters) ∧
        readBinding d.file items = .ok (d.binding, attributes) ∧
        d.attributes = attributes.map (·.text) ∧ d.span = line.span := by
  unfold readDeclaration
  constructor
  · intro h
    split at h
    · cases h
    · rename_i item items hsplit
      split at h
      · cases h
      · rename_i hopen
        obtain ⟨register, hregister, h⟩ := Reading.bind_eq_ok_iff.mp h
        split at h
        · cases h
        · rename_i hvarying
          obtain ⟨⟨binding, attributes⟩, hbinding, h⟩ := Reading.bind_eq_ok_iff.mp h
          cases h
          refine ⟨item, items, attributes, hsplit, Bool.eq_false_iff.mpr hopen, hregister, ?_,
            hbinding, rfl, rfl⟩
          intro hfile
          simpa [hfile] using hvarying
  · rintro ⟨item, items, attributes, hsplit, hopen, hregister, hlast, hbinding, hattributes, hspan⟩
    have hvarying : ¬ (d.file.isVarying && decide (maxVaryingRegisters ≤ d.last)) = true := by
      intro hpast
      simp only [Bool.and_eq_true, decide_eq_true_eq] at hpast
      exact Nat.not_lt.mpr hpast.2 (hlast hpast.1)
    simp only [hsplit, hopen, Bool.false_eq_true, if_false, hregister, Reading.ok_bind,
      if_neg hvarying, hbinding, ← hattributes, ← hspan]
    rfl

/-- The items after the register are the attributes, less the first one if it was a semantic. -/
theorem readDeclaration_wellFormed {line rest : Excerpt} (hrest : rest.text.OneLine)
    {d : Declaration} (h : line.readDeclaration rest = .ok d) : d.WellFormed := by
  obtain ⟨register, binding, texts, span⟩ := d
  obtain ⟨item, items, attributes, hsplit, -, hregister, hlast, hbinding, hattributes, -⟩ :=
    readDeclaration_eq_ok_iff.mp h
  dsimp only at hregister hlast hbinding hattributes
  subst hattributes
  have htexts := rest.map_text_splitTopLevel
  have hitems := Text.items_splitTopLevel rest.text
  have hattr : ∀ e ∈ rest.splitTopLevel, e.text.Trimmed ∧ e.text.OneLine := by
    intro e he
    have hmem : e.text ∈ Text.splitTopLevel rest.text := htexts ▸ List.mem_map_of_mem he
    exact ⟨Text.trimmed_of_mem_splitTopLevel hmem,
      hrest.mono (Text.mem_splitTopLevel_subset hmem)⟩
  rw [hsplit] at htexts hattr
  rw [← htexts, List.map_cons] at hitems
  have hregister := readRegister_wellFormed hregister
  rcases readBinding_cases hbinding with ⟨item', b, rfl, rfl, hfile, hb⟩ | ⟨rfl, rfl, hunbound⟩
  · refine ⟨hregister, hlast, ?_, by simp, ?_, ?_⟩
    · simpa using ⟨hfile, readSemantic_wellFormed hb⟩
    · rcases hitems.tail with hnil | htail
      · simp at hnil
      · simpa using htail.tail
    · intro a ha
      obtain ⟨e, he, rfl⟩ := List.mem_map.mp ha
      exact hattr e (by simp [he])
  · refine ⟨hregister, hlast, by simp, ?_, ?_, ?_⟩
    · intro _ hfile a ha
      cases attributes with
      | nil => simp at ha
      | cons e es =>
        obtain rfl : e.text = a := by simpa using ha
        exact hunbound hfile e (by simp)
    · simpa using hitems.tail
    · intro a ha
      obtain ⟨e, he, rfl⟩ := List.mem_map.mp ha
      exact hattr e (by simp [he])

/-! ### The other tokens -/

theorem readProperty_wellFormed {line rest : Excerpt} (hrest : rest.text.OneLine) {p : Property}
    (h : line.readProperty rest = .ok p) : p.WellFormed := by
  unfold readProperty at h
  split at h
  · rename_i name value hwords
    cases h
    have hname := Text.mem_words (show name ∈ Text.words rest.text by simp [hwords])
    have hvalue := Text.mem_words (show value ∈ Text.words rest.text by simp [hwords])
    exact ⟨⟨hname.1, hname.2.1⟩, ⟨hvalue.1, hvalue.2.1⟩, hrest.mono hname.2.2,
      hrest.mono hvalue.2.2⟩
  · cases h

theorem bracedText?_subset {t inner : Text} (h : bracedText? t = some inner) : inner ⊆ t := by
  unfold bracedText? at h
  split at h
  · rename_i body hbody
    simp only [Option.ite_none_right_eq_some, Option.some.injEq] at h
    obtain ⟨-, rfl⟩ := h
    intro c hc
    apply Text.trim_subset t
    rw [hbody]
    exact List.mem_cons_of_mem _ (Text.trimEnd_subset body ((List.dropLast_sublist _).subset hc))
  · cases h

theorem mem_immediateValues {t v : Text} (h : v ∈ immediateValues t) :
    v ≠ [] ∧ v.Trimmed ∧ ',' ∉ v ∧ v ⊆ t := by
  obtain ⟨hmem, hne⟩ := List.mem_filter.mp h
  obtain ⟨part, hpart, rfl⟩ := List.mem_map.mp hmem
  obtain ⟨hcomma, hsubset⟩ := Text.mem_splitOnP hpart
  refine ⟨by simpa using hne, Text.trimmed_trim part, fun hc => ?_, fun c hc => ?_⟩
  · simpa using hcomma ',' (Text.trim_subset part hc)
  · exact hsubset (Text.trim_subset part hc)

theorem readImmediate_wellFormed {line rest : Excerpt} (hrest : rest.text.OneLine)
    {i : Immediate} (h : line.readImmediate rest = .ok i) : i.WellFormed := by
  unfold readImmediate at h
  simp only at h
  split at h
  · rename_i hkind
    split at h
    · cases h
    · rename_i inner hinner
      split at h
      · cases h
      · rename_i hsize
        cases h
        simp only [Bool.or_eq_true, List.isEmpty_iff, decide_eq_true_eq, not_or,
          Nat.not_lt] at hsize
        refine ⟨by simpa using hkind, hsize.1, hsize.2, fun v hv => ?_⟩
        obtain ⟨hne, htrim, hcomma, hsubset⟩ := mem_immediateValues hv
        refine ⟨hne, htrim, hcomma, hrest.mono fun c hc => ?_⟩
        exact rest.rest_subset (bracedText?_subset hinner (hsubset hc))
  · cases h

theorem dropLabel_subset {line body : Excerpt} (h : line.dropLabel = .ok body) :
    body.text ⊆ line.text := by
  unfold dropLabel at h
  simp only at h
  split at h
  · split at h
    · cases h
      exact line.rest_subset
    · cases h
  · cases h
    exact fun c hc => hc

theorem readInstruction_wellFormed {line : Excerpt} (hline : line.text.OneLine)
    {i : Instruction} (h : line.readInstruction = .ok i) : i.WellFormed := by
  unfold readInstruction at h
  simp only [Reading.bind_eq_ok_iff] at h
  obtain ⟨body, hbody, h⟩ := h
  split at h
  · rename_i hopcode
    cases h
    have hsubset : body.splitWord.2.text ⊆ line.text :=
      fun c hc => dropLabel_subset hbody (body.rest_subset hc)
    refine ⟨hopcode, ?_, ?_⟩
    · dsimp only
      split
      · exact .inl rfl
      · rename_i hne
        refine .inr ⟨Text.items_splitTopLevel _, fun hone => hne ?_⟩
        rw [Text.trim_eq_nil_of_splitTopLevel hone]
        rfl
    · dsimp only
      split
      · simp
      · intro o ho
        exact ⟨Text.trimmed_of_mem_splitTopLevel ho,
          hline.mono fun c hc => hsubset (Text.mem_splitTopLevel_subset ho hc)⟩
  · cases h

theorem readToken_wellFormed {line : Excerpt} (hline : line.text.OneLine) {t : Token}
    (h : line.readToken = .ok t) : t.WellFormed := by
  have hrest : line.splitWord.2.text.OneLine := hline.mono line.rest_subset
  unfold readToken at h
  simp only at h
  split at h
  · obtain ⟨p, hp, rfl⟩ := Reading.map_eq_ok_iff.mp h
    exact readProperty_wellFormed hrest hp
  · split at h
    · obtain ⟨d, hd, rfl⟩ := Reading.map_eq_ok_iff.mp h
      exact readDeclaration_wellFormed hrest hd
    · split at h
      · obtain ⟨i, hi, rfl⟩ := Reading.map_eq_ok_iff.mp h
        exact readImmediate_wellFormed hrest hi
      · obtain ⟨i, hi, rfl⟩ := Reading.map_eq_ok_iff.mp h
        exact readInstruction_wellFormed hline hi

/-! ### Programs -/

theorem oneLine_of_mem_significantLines {source : Text} {line : Excerpt}
    (h : line ∈ significantLines source) : line.text.OneLine := by
  obtain ⟨hmem, -⟩ := List.mem_filter.mp h
  obtain ⟨raw, hraw, rfl⟩ := List.mem_map.mp hmem
  have hpart : raw.text ∈ List.splitOn '\n' source := by
    rw [← map_text_lines]
    exact List.mem_map_of_mem hraw
  intro c hc
  have hcut : c ∈ raw.text.takeWhile (· != ';') := Text.trim_subset _ hc
  have hfeed := (Text.mem_splitOnP hpart).1 c ((List.takeWhile_sublist _).subset hcut)
  exact ⟨by simpa using hfeed, by simpa using List.mem_takeWhile_imp hcut⟩

end Excerpt

namespace Program

/-- The program of a list of tokens. -/
def ofTokens (stage : Stage) (tokens : List Token) : Program where
  stage := stage
  properties := tokens.filterMap Token.property?
  declarations := tokens.filterMap Token.declaration?
  immediates := tokens.filterMap Token.immediate?
  instructions := tokens.filterMap Token.instruction?

theorem push_ofTokens (stage : Stage) (tokens : List Token) (t : Token) :
    (ofTokens stage tokens).push t = ofTokens stage (tokens ++ [t]) := by
  cases t <;>
    simp [ofTokens, push, Token.property?, Token.declaration?, Token.immediate?, Token.instruction?]

/-- The loop over the lines collects the tokens and the problems that the lines give, each in the
order of the lines. -/
theorem foldl_readInto (stage : Stage) (tokens : List Token) (problems : List Problem)
    (lines : List Excerpt) :
    lines.foldl readInto (ofTokens stage tokens, problems) =
      (ofTokens stage (tokens ++ lines.filterMap (·.readToken.value)),
        problems ++ lines.flatMap (·.readToken.problems)) := by
  induction lines generalizing tokens problems with
  | nil => simp
  | cons line lines ih =>
      rw [List.foldl_cons, readInto]
      cases hvalue : line.readToken.value with
      | none => simp [hvalue, ih]
      | some t => simp [hvalue, push_ofTokens, ih]

/-- The outcome of reading the lines behind a header. -/
theorem parse_eq_of_header {source : Text} {header : Excerpt} {body : List Excerpt} {stage : Stage}
    (hlines : Excerpt.significantLines source = header :: body)
    (hstage : Stage.ofProcessor? header.text = some stage) :
    parse source =
      if (body.flatMap (·.readToken.problems)).isEmpty then
        .ok (ofTokens stage (body.filterMap (·.readToken.value)))
      else .error ((body.flatMap (·.readToken.problems)).map Problem.diagnostic) := by
  have hloop := foldl_readInto stage [] [] body
  rw [List.nil_append, List.nil_append] at hloop
  simp only [parse, hlines, hstage]
  rw [show ({ stage } : Program) = ofTokens stage [] from rfl, hloop]

/-- Lines that report nothing are tokens, and none of them is left out. -/
theorem map_readToken_of_no_problems {lines : List Excerpt}
    (h : lines.flatMap (·.readToken.problems) = []) :
    lines.map Excerpt.readToken = (lines.filterMap (·.readToken.value)).map .ok := by
  induction lines with
  | nil => rfl
  | cons line lines ih =>
      rw [List.flatMap_cons, List.append_eq_nil_iff] at h
      rcases line.reads_readToken.exact with ⟨t, ht⟩ | ⟨p, hp⟩
      · simp only [List.map_cons, ih h.2, List.filterMap_cons, ht]
      · simp [hp] at h

/-- A program that was read is made of the tokens of all its lines. -/
theorem parse_eq_ok {source : Text} {p : Program} (h : parse source = .ok p) :
    ∃ header body stage tokens, Excerpt.significantLines source = header :: body ∧
      Stage.ofProcessor? header.text = some stage ∧
      body.map Excerpt.readToken = tokens.map .ok ∧ p = ofTokens stage tokens := by
  cases hlines : Excerpt.significantLines source with
  | nil => simp [parse, hlines] at h
  | cons header body =>
      cases hstage : Stage.ofProcessor? header.text with
      | none => simp [parse, hlines, hstage] at h
      | some stage =>
        rw [parse_eq_of_header hlines hstage] at h
        split at h
        · rename_i hnone
          cases h
          exact ⟨header, body, stage, _, rfl, hstage,
            map_readToken_of_no_problems (List.isEmpty_iff.mp hnone), rfl⟩
        · cases h

/-- What is collected from tokens of one kind was one of the tokens. -/
theorem mem_of_mem_filterMap {α : Type} {f : Token → Option α} {g : α → Token}
    (hf : ∀ {t a}, f t = some a → t = g a) {tokens : List Token} {a : α}
    (h : a ∈ tokens.filterMap f) : g a ∈ tokens := by
  obtain ⟨t, ht, heq⟩ := List.mem_filterMap.mp h
  rw [← hf heq]
  exact ht

theorem parse_wellFormed {source : Text} {p : Program} (h : parse source = .ok p) :
    p.WellFormed := by
  obtain ⟨header, body, stage, tokens, hlines, -, htokens, rfl⟩ := parse_eq_ok h
  have hall : ∀ t ∈ tokens, t.WellFormed := by
    intro t ht
    have hok : .ok t ∈ body.map Excerpt.readToken := htokens ▸ List.mem_map_of_mem ht
    obtain ⟨line, hline, hread⟩ := List.mem_map.mp hok
    have hmem : line ∈ Excerpt.significantLines source := by simp [hlines, hline]
    exact Excerpt.readToken_wellFormed (Excerpt.oneLine_of_mem_significantLines hmem) hread
  exact ⟨fun _ hx => hall _ (mem_of_mem_filterMap Token.eq_property hx),
    fun _ hd => hall _ (mem_of_mem_filterMap Token.eq_declaration hd),
    fun _ hi => hall _ (mem_of_mem_filterMap Token.eq_immediate hi),
    fun _ hi => hall _ (mem_of_mem_filterMap Token.eq_instruction hi)⟩

end Program

end ShaderBackend
