import ShaderBackend.Proofs.Program.Canonical

/-!
The numbers of immediates and instructions. A line is written with a number, `IMM[n]` or `n:`, and
operands refer to other lines by it. No token keeps its number: the printed program numbers
immediates and instructions by position. So a number means the same in the printed program exactly
when the line in the place that it names says what the line with that number says.
-/

namespace ShaderBackend

/-! ### Numbered lines -/

/-- Lines in order, each with the number it is written with, if it has one, and what it says. -/
abbrev NumberedLines (α : Type) := List (Option Nat × α)

namespace NumberedLines

variable {α : Type}

/-- Every numbered line is found again under its number. -/
def KeptIn (lines lines' : NumberedLines α) : Prop :=
  ∀ line ∈ lines, line.1.isSome = true → line ∈ lines'

/-- What a numbered line says stands also in the place that its number names. -/
def InPlace (lines : NumberedLines α) : Prop :=
  ∀ line ∈ lines, ∀ n ∈ line.1, lines[n]?.map Prod.snd = some line.2

/-- No two lines have the same number. -/
def Distinct (lines : NumberedLines α) : Prop :=
  (lines.filterMap Prod.fst).Nodup

instance [DecidableEq α] (lines lines' : NumberedLines α) : Decidable (lines.KeptIn lines') :=
  inferInstanceAs (Decidable (∀ line ∈ lines, line.1.isSome = true → line ∈ lines'))

instance [DecidableEq α] (lines : NumberedLines α) : Decidable lines.InPlace :=
  inferInstanceAs
    (Decidable (∀ line ∈ lines, ∀ n ∈ line.1, lines[n]?.map Prod.snd = some line.2))

instance (lines : NumberedLines α) : Decidable lines.Distinct :=
  inferInstanceAs (Decidable (lines.filterMap Prod.fst).Nodup)

/-- The same lines, numbered from zero. -/
def byPosition (lines : NumberedLines α) : NumberedLines α :=
  lines.mapIdx fun n line => (some n, line.2)

theorem mem_byPosition {lines : NumberedLines α} {n : Nat} {a : α} :
    (some n, a) ∈ lines.byPosition ↔ lines[n]?.map Prod.snd = some a := by
  simp only [byPosition, List.mem_mapIdx, Prod.mk.injEq, Option.some.injEq]
  constructor
  · rintro ⟨k, hk, rfl, rfl⟩
    rw [List.getElem?_eq_getElem hk, Option.map_some]
  · intro h
    obtain ⟨line, hline, rfl⟩ := Option.map_eq_some_iff.mp h
    obtain ⟨hn, rfl⟩ := List.getElem?_eq_some_iff.mp hline
    exact ⟨n, hn, rfl, rfl⟩

theorem keptIn_byPosition_iff {lines : NumberedLines α} :
    lines.KeptIn lines.byPosition ↔ lines.InPlace := by
  constructor
  · rintro h ⟨_, a⟩ hline n rfl
    exact mem_byPosition.mp (h (some n, a) hline rfl)
  · rintro h ⟨number, a⟩ hline hsome
    obtain ⟨n, rfl⟩ := Option.isSome_iff_exists.mp hsome
    exact mem_byPosition.mpr (h (some n, a) hline n rfl)

theorem byPosition_eq (lines : NumberedLines α) :
    lines.byPosition = (lines.map Prod.snd).mapIdx fun n a => (some n, a) := by
  refine List.mapIdx_eq_iff.mpr fun n => ?_
  rw [List.getElem?_mapIdx, List.getElem?_map, Option.map_map]
  rfl

end NumberedLines

/-- The number that a nonempty run of digits denotes. -/
def labelNumber? (t : Text) : Option Nat :=
  if isLabel t then Text.readDigits? 10 0 t else none

namespace Excerpt

/-- The number in the brackets of an immediate. -/
def immediateNumber? (line : Excerpt) : Option Nat :=
  match List.isPrefixOf? "IMM[".toList line.splitWord.1.text with
  | some rest => if rest.getLast? = some ']' then labelNumber? rest.dropLast else none
  | none => none

/-- The number in front of an instruction. -/
def instructionNumber? (line : Excerpt) : Option Nat :=
  if line.splitWord.1.text.getLast? = some ':' then
    labelNumber? line.splitWord.1.text.dropLast
  else none

/-- What a line says, with its number, if it is a token of the wanted kind. -/
def numberedLine? {α : Type} (number? : Excerpt → Option Nat) (content? : Token → Option α)
    (line : Excerpt) : Option (Option Nat × α) :=
  match line.readToken.value with
  | some t => (content? t).map fun a => (number? line, a)
  | none => none

end Excerpt

/-- The tokens of one kind of a source, after its header. -/
def numberedLines {α : Type} (number? : Excerpt → Option Nat) (content? : Token → Option α)
    (source : Text) : NumberedLines α :=
  (Excerpt.significantLines source).tail.filterMap (Excerpt.numberedLine? number? content?)

/-- The kind and the values of an immediate. -/
def Token.immediateContent? (t : Token) : Option (Text × List Text) :=
  t.immediate?.map fun i => (i.kind, i.values)

/-- The opcode and the operands of an instruction. -/
def Token.instructionContent? (t : Token) : Option (Text × List Text) :=
  t.instruction?.map fun i => (i.opcode, i.operands)

def immediateLines (source : Text) : NumberedLines (Text × List Text) :=
  numberedLines Excerpt.immediateNumber? Token.immediateContent? source

def instructionLines (source : Text) : NumberedLines (Text × List Text) :=
  numberedLines Excerpt.instructionNumber? Token.instructionContent? source

/-! ### The lines of a source that was read -/

theorem map_snd_numberedLines {α : Type} {number? : Excerpt → Option Nat}
    {content? : Token → Option α} {source : Text} {header : Excerpt} {body : List Excerpt}
    {tokens : List Token} (hlines : Excerpt.significantLines source = header :: body)
    (htokens : body.map Excerpt.readToken = tokens.map .ok) :
    (numberedLines number? content? source).map Prod.snd = tokens.filterMap content? := by
  have hsnd : ∀ e : Excerpt, (e.numberedLine? number? content?).map Prod.snd =
      e.readToken.value.bind content? := by
    intro e
    unfold Excerpt.numberedLine?
    split
    · rename_i t ht
      rw [ht, Option.map_map]
      exact Option.map_id'
    · rename_i hnone
      rw [hnone]
      rfl
  calc (numberedLines number? content? source).map Prod.snd
      = (body.map Excerpt.readToken).filterMap fun r => r.value.bind content? := by
        rw [numberedLines, hlines, List.tail_cons, List.map_filterMap, List.filterMap_map]
        exact List.filterMap_congr fun e _ => hsnd e
    _ = tokens.filterMap content? := by
        rw [htokens, List.filterMap_map]
        rfl

/-! ### The lines of a printed program -/

theorem labelNumber?_decimal (n : Nat) : labelNumber? (Text.decimal n) = some n := by
  rw [labelNumber?, if_pos (isLabel_decimal n),
    Text.readDigits?_of_forall_isDigit fun c hc => Text.isDigit_of_mem_decimal hc, Text.decimal,
    Nat.ofDigitChars_ten_toDigits]

namespace Excerpt

theorem immediateNumber?_label {line : Excerpt} {n : Nat}
    (h : line.splitWord.1.text = Immediate.label n) : line.immediateNumber? = some n := by
  have hrest : List.isPrefixOf? "IMM[".toList (Immediate.label n) =
      some (Text.decimal n ++ [']']) := rfl
  rw [immediateNumber?, h, hrest]
  simp only [List.getLast?_concat, if_true, List.dropLast_concat, labelNumber?_decimal]

theorem instructionNumber?_label {line : Excerpt} {n : Nat}
    (h : line.splitWord.1.text = Instruction.label n) : line.instructionNumber? = some n := by
  rw [instructionNumber?, h, Instruction.label]
  simp only [List.getLast?_concat, if_true, List.dropLast_concat, labelNumber?_decimal]

end Excerpt

namespace Program

theorem map_of_forall₂ {β : Type} {f : Excerpt → β} {lines : List Text} {values : List β}
    (h : List.Forall₂ (fun line b => ∀ e : Excerpt, e.text = Text.trim line → f e = b) lines values)
    {body : List Excerpt} (hbody : body.map (·.text) = lines.map Text.trim) :
    body.map f = values := by
  induction h generalizing body with
  | nil =>
      obtain rfl : body = [] := by simpa using hbody
      rfl
  | cons hline _ ih =>
      obtain ⟨e, body, rfl, he, hrest⟩ := List.map_eq_cons_iff.mp hbody
      rw [List.map_cons, hline e he, ih hrest]

/-- What is collected from the lines of a printed program, if nothing is from properties and
declarations. -/
theorem filterMap_tokenLines {β : Type} (f : Excerpt → Option β)
    (ofImmediate : Nat → Immediate → Option β) (ofInstruction : Nat → Instruction → Option β)
    {p : Program} (hp : p.WellFormed)
    (hproperty : ∀ e x, e.readToken = .ok (.property x) → f e = none)
    (hdeclaration : ∀ e d, e.readToken = .ok (.declaration d) → f e = none)
    (himmediate : ∀ e n, ∀ i ∈ p.immediates, e.text = Text.trim (i.render n) →
      f e = ofImmediate n i)
    (hinstruction : ∀ e n, ∀ i ∈ p.instructions, e.text = Text.trim (i.render n) →
      f e = ofInstruction n i)
    {body : List Excerpt} (hbody : body.map (·.text) = p.tokenLines.map Text.trim) :
    body.filterMap f =
      (p.immediates.mapIdx ofImmediate ++ p.instructions.mapIdx ofInstruction).filterMap id := by
  have hvalues : body.map f = p.properties.map (fun _ => none) ++
      p.declarations.map (fun _ => none) ++ p.immediates.mapIdx ofImmediate ++
      p.instructions.mapIdx ofInstruction := by
    refine map_of_forall₂ ?_ hbody
    -- The lines come in four groups, one for each kind of token.
    refine List.rel_append (List.rel_append (List.rel_append ?_ ?_) ?_) ?_
    · rw [List.forall₂_map_left_iff, List.forall₂_map_right_iff, List.forall₂_same]
      exact fun x hx e he => hproperty e _ (Excerpt.readToken_property (hp.properties x hx) he)
    · rw [List.forall₂_map_left_iff, List.forall₂_map_right_iff, List.forall₂_same]
      exact fun d hd e he =>
        hdeclaration e _ (Excerpt.readToken_declaration (hp.declarations d hd) he)
    · exact forall₂_mapIdx fun n i hi e he => himmediate e n i hi he
    · exact forall₂_mapIdx fun n i hi e he => hinstruction e n i hi he
  have hid : body.filterMap f = (body.map f).filterMap id := by rw [List.filterMap_map]; rfl
  rw [hid, hvalues]
  simp [List.filterMap_append]

theorem filterMap_id_mapIdx_some {α β : Type} (g : Nat → α → β) (l : List α) :
    (l.mapIdx fun n a => some (g n a)).filterMap id = l.mapIdx g := by
  have hsome : (l.mapIdx fun n a => some (g n a)) = (l.mapIdx g).map some := by
    refine List.mapIdx_eq_iff.mpr fun n => ?_
    rw [List.getElem?_map, List.getElem?_mapIdx, Option.map_map]
    rfl
  rw [hsome, List.filterMap_map]
  exact List.filterMap_some

theorem filterMap_id_mapIdx_none {α β : Type} (l : List α) :
    (l.mapIdx fun _ _ => (none : Option β)).filterMap id = [] := by
  rw [mapIdx_const, List.filterMap_map]
  exact List.filterMap_none l

theorem immediateLines_render {p : Program} (hp : p.WellFormed) :
    immediateLines p.render = p.immediates.mapIdx fun n i => (some n, i.kind, i.values) := by
  obtain ⟨header, body, hlines, -, hbody⟩ := significantLines_render hp
  have hcollect := filterMap_tokenLines
    (Excerpt.numberedLine? Excerpt.immediateNumber? Token.immediateContent?)
    (fun n i => some (some n, i.kind, i.values)) (fun _ _ => none) hp
    (fun e x h => by rw [Excerpt.numberedLine?, h]; rfl)
    (fun e d h => by rw [Excerpt.numberedLine?, h]; rfl)
    (fun e n i hi h => by
      have hi := hp.immediates i hi
      have hnumber := Excerpt.immediateNumber?_label (Excerpt.splitWord_immediate hi h).1
      rw [Excerpt.numberedLine?, Excerpt.readToken_immediate hi h]
      simp only [hnumber]
      rfl)
    (fun e n i hi h => by
      rw [Excerpt.numberedLine?, Excerpt.readToken_instruction (hp.instructions i hi) h]
      rfl) hbody
  rw [immediateLines, numberedLines, hlines, List.tail_cons, hcollect, List.filterMap_append,
    filterMap_id_mapIdx_some, filterMap_id_mapIdx_none, List.append_nil]

theorem instructionLines_render {p : Program} (hp : p.WellFormed) :
    instructionLines p.render =
      p.instructions.mapIdx fun n i => (some n, i.opcode, i.operands) := by
  obtain ⟨header, body, hlines, -, hbody⟩ := significantLines_render hp
  have hcollect := filterMap_tokenLines
    (Excerpt.numberedLine? Excerpt.instructionNumber? Token.instructionContent?)
    (fun _ _ => none) (fun n i => some (some n, i.opcode, i.operands)) hp
    (fun e x h => by rw [Excerpt.numberedLine?, h]; rfl)
    (fun e d h => by rw [Excerpt.numberedLine?, h]; rfl)
    (fun e n i hi h => by
      rw [Excerpt.numberedLine?, Excerpt.readToken_immediate (hp.immediates i hi) h]
      rfl)
    (fun e n i hi h => by
      have hi := hp.instructions i hi
      have hnumber := Excerpt.instructionNumber?_label (Excerpt.splitWord_label hi h).1
      rw [Excerpt.numberedLine?, Excerpt.readToken_instruction hi h]
      simp only [hnumber]
      rfl) hbody
  rw [instructionLines, numberedLines, hlines, List.tail_cons, hcollect, List.filterMap_append,
    filterMap_id_mapIdx_some, filterMap_id_mapIdx_none, List.nil_append]

/-- Immediates and instructions of a source are printed in the order in which they are written,
each with its position as its number. -/
theorem lines_render_eq_byPosition {source : Text} {p : Program} (h : parse source = .ok p) :
    immediateLines p.render = (immediateLines source).byPosition ∧
      instructionLines p.render = (instructionLines source).byPosition := by
  have hp := parse_wellFormed h
  obtain ⟨header, body, stage, tokens, hlines, -, htokens, rfl⟩ := parse_eq_ok h
  have himmediates : (immediateLines source).map Prod.snd =
      (tokens.filterMap Token.immediate?).map fun i => (i.kind, i.values) := by
    rw [immediateLines, map_snd_numberedLines hlines htokens, List.map_filterMap]
    rfl
  have hinstructions : (instructionLines source).map Prod.snd =
      (tokens.filterMap Token.instruction?).map fun i => (i.opcode, i.operands) := by
    rw [instructionLines, map_snd_numberedLines hlines htokens, List.map_filterMap]
    rfl
  constructor
  · rw [immediateLines_render hp, NumberedLines.byPosition_eq, himmediates]
    refine List.mapIdx_eq_iff.mpr fun n => ?_
    rw [List.getElem?_mapIdx, List.getElem?_map, Option.map_map]
    rfl
  · rw [instructionLines_render hp, NumberedLines.byPosition_eq, hinstructions]
    refine List.mapIdx_eq_iff.mpr fun n => ?_
    rw [List.getElem?_mapIdx, List.getElem?_map, Option.map_map]
    rfl

end Program

/-- The printed form of an accepted program numbers its immediates and its instructions by position.
The numbers of the source keep their meaning in it exactly when they are in place. -/
theorem FrontEnd.render_numbers_by_position (f : FrontEnd) (source : Text) (stage : Stage)
    (p : Program) (h : (f.compile source stage).1 = .ok p) :
    immediateLines p.render = (immediateLines source).byPosition ∧
      instructionLines p.render = (instructionLines source).byPosition ∧
      ((immediateLines source).KeptIn (immediateLines p.render) ↔
        (immediateLines source).InPlace) ∧
      ((instructionLines source).KeptIn (instructionLines p.render) ↔
        (instructionLines source).InPlace) := by
  rw [compile_fst, Program.ofSource_eq_ok] at h
  obtain ⟨himmediates, hinstructions⟩ := Program.lines_render_eq_byPosition h.1
  rw [himmediates, hinstructions]
  exact ⟨rfl, rfl, NumberedLines.keptIn_byPosition_iff, NumberedLines.keptIn_byPosition_iff⟩

/-- An immediate and two instructions with the numbers from `first` on. -/
def numberedSource (first : Nat) : Text :=
  "FRAG\nIMM" ++ bracketed first ++ " FLT32 \x7b 1.0 \x7d\n" ++
    Text.decimal first ++ ": MOV TEMP[0], IMM" ++ bracketed first ++ "\n" ++
    Text.decimal (first + 1) ++ ": END\n"

/-- What is read from it while its numbers have one digit. -/
def movImmediate (first : Nat) : Program where
  stage := .fragment
  immediates := [{ kind := "FLT32".toList, values := ["1.0".toList], span := ⟨5, 25⟩ }]
  instructions := [
    { opcode := "MOV".toList, operands := ["TEMP[0]".toList, "IMM" ++ bracketed first]
      span := ⟨26, 48⟩ },
    { opcode := "END".toList, operands := [], span := ⟨49, 55⟩ }]

theorem FrontEnd.render_numbers_by_position_movImmediate :
    (FrontEnd.compile {} (numberedSource 0) .fragment).1 = .ok (movImmediate 0) ∧
    (immediateLines (numberedSource 0)).KeptIn (immediateLines (movImmediate 0).render) ∧
    (instructionLines (numberedSource 0)).KeptIn (instructionLines (movImmediate 0).render) := by
  have h : (FrontEnd.compile {} (numberedSource 0) .fragment).1 = .ok (movImmediate 0) := rfl
  obtain ⟨-, -, himmediates, hinstructions⟩ := FrontEnd.render_numbers_by_position {} _ _ _ h
  exact ⟨h, himmediates.mpr (by decide), hinstructions.mpr (by decide)⟩

/-- Numbers that start at one are lost: the immediate is printed as `IMM[0]`, and the operand that
refers to it still as `IMM[1]`. -/
theorem FrontEnd.render_renumbers_movImmediate :
    (FrontEnd.compile {} (numberedSource 1) .fragment).1 = .ok (movImmediate 1) ∧
    (immediateLines (numberedSource 1)).Distinct ∧
    (∀ line ∈ immediateLines (numberedSource 1), line.1.isSome = true) ∧
    (instructionLines (numberedSource 1)).Distinct ∧
    ¬ (immediateLines (numberedSource 1)).KeptIn (immediateLines (movImmediate 1).render) ∧
    ¬ (instructionLines (numberedSource 1)).KeptIn (instructionLines (movImmediate 1).render) := by
  refine ⟨rfl, by decide, by decide, by decide, by decide, by decide⟩

end ShaderBackend
