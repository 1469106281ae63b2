import ShaderBackend.Generator.Process
import ShaderBackend.Proofs.Target.Settings
import ShaderBackend.Proofs.Text.Parts

/-!
The command line that a target file gives for its code generator. A command and a list of quoted
arguments can be put into the section of any target file that sets neither; the target then has a
command line, and the words of that line are the command and the words of the arguments, where a
comma ends a word as a blank does.
-/

namespace ShaderBackend

namespace Text

/-! ### Words of a list -/

/-- The words of a text in which a comma ends a word too. -/
def listWords (t : Text) : List Text :=
  (List.splitOn ',' t).flatMap words

theorem listWords_of_not_mem {t : Text} (h : ',' ∉ t) : listWords t = words t := by
  rw [listWords, List.splitOn_eq_singleton h, List.flatMap_singleton]

theorem listWords_append (s t : Text) : listWords (s ++ ',' :: t) = listWords s ++ listWords t := by
  rw [listWords, List.splitOn_append_cons_self, List.flatMap_append, listWords, listWords]

theorem mem_listWords {t word : Text} (h : word ∈ listWords t) :
    ∀ c ∈ word, isBlank c = false ∧ c ≠ ',' := by
  obtain ⟨part, hpart, hword⟩ := List.mem_flatMap.mp h
  intro c hc
  obtain ⟨-, hblank, hsub⟩ := mem_words hword
  exact ⟨hblank c hc, by simpa using (mem_splitOnP hpart).1 c (hsub hc)⟩

/-- Texts are their own words exactly if no blank and no comma is in them. -/
theorem flatMap_listWords_eq_self_iff {ts : List Text} (h : ∀ t ∈ ts, t ≠ []) :
    ts.flatMap listWords = ts ↔ ∀ t ∈ ts, ∀ c ∈ t, isBlank c = false ∧ c ≠ ',' := by
  constructor
  · intro heq t ht
    rw [← heq] at ht
    obtain ⟨s, -, hword⟩ := List.mem_flatMap.mp ht
    exact mem_listWords hword
  · intro hplain
    have hself : ∀ t ∈ ts, listWords t = [t] := by
      intro t ht
      rw [listWords_of_not_mem fun hc => (hplain t ht _ hc).2 rfl,
        words_of_forall_not (h t ht) fun c hc => (hplain t ht c hc).1]
    calc ts.flatMap listWords = ts.flatMap fun t => [t] := List.flatMap_congr hself
      _ = ts := List.flatMap_singleton' ts

theorem flatMap_words_filter (ts : List Text) :
    (ts.filter (! ·.isEmpty)).flatMap words = ts.flatMap words := by
  induction ts with
  | nil => rfl
  | cons t ts ih =>
      cases t with
      | nil => exact ih
      | cons c t => simp [ih]

/-- Trimming a text between marks takes no word from it. -/
theorem exists_trim_between {a b : Text} (ha : ∀ c ∈ a, isBlank c = false)
    (hb : ∀ c ∈ b, isBlank c = false) (t : Text) :
    ∃ s, trim (a ++ t ++ b) = a ++ s ++ b ∧ s ⊆ t ∧ words s = words t := by
  have hend : ∃ s, trimEnd (a ++ t ++ b) = a ++ s ++ b ∧ s ⊆ t ∧ words s = words t := by
    cases b with
    | nil =>
        refine ⟨trimEnd t, ?_, trimEnd_subset t, words_trimEnd t⟩
        rw [List.append_nil, List.append_nil,
          trimEnd_append_of_last fun c hc => ha c (List.mem_of_getLast? hc)]
    | cons c b =>
        refine ⟨t, trimEnd_of_last fun d hd => hb d ?_, List.Subset.refl t, rfl⟩
        rw [List.getLast?_append_of_ne_nil _ (by simp)] at hd
        exact List.mem_of_getLast? hd
  obtain ⟨s, hs, hsub, hwords⟩ := hend
  rw [trim, hs]
  cases a with
  | nil =>
      refine ⟨trimStart s, ?_, fun c hc => hsub (trimStart_subset s hc), ?_⟩
      · exact trimStart_append_of_head s fun c hc => hb c (List.mem_of_head? hc)
      · rw [words_trimStart, hwords]
  | cons c a => exact ⟨s, trimStart_of_head (by simpa using ha c (by simp)), hsub, hwords⟩

end Text

/-! ### Quoted values -/

/-- A text in quotes. -/
def quoted (t : Text) : Text :=
  ['"'] ++ t ++ ['"']

/-- A list of texts in quotes. -/
def quotedList (ts : List Text) : Text :=
  ['['] ++ List.intercalate ", " (ts.map quoted) ++ [']']

theorem trimmed_between {a b : Char} (ha : isBlank a = false) (hb : isBlank b = false) (t : Text) :
    Text.Trimmed ([a] ++ t ++ [b]) where
  head := by simpa using ha
  last := by
    rw [List.getLast?_concat]
    simpa using hb

/-- Quoted texts with separators between them start and end with a quote. -/
theorem exists_intercalate_quoted (separator : Text) {ts : List Text} (h : ts ≠ []) :
    ∃ u, List.intercalate separator (ts.map quoted) = ['"'] ++ u ++ ['"'] := by
  induction ts with
  | nil => exact absurd rfl h
  | cons t ts ih =>
      cases ts with
      | nil => exact ⟨t, List.intercalate_singleton⟩
      | cons t' ts =>
          obtain ⟨u, hu⟩ := ih (by simp)
          refine ⟨t ++ ['"'] ++ separator ++ ['"'] ++ u, ?_⟩
          rw [List.map_cons] at hu
          rw [List.map_cons, List.map_cons, List.intercalate_cons_cons, hu]
          simp [quoted]

namespace TargetSettings

theorem unquote_between {a b t : Text} (ha : ∀ c ∈ a, c = '"') (hb : ∀ c ∈ b, c = '"')
    (ht : '"' ∉ t) : unquote (a ++ t ++ b) = t := by
  have hplain : ∀ c ∈ t, (c == '"') = false := by
    intro c hc
    rw [beq_eq_false_iff_ne]
    rintro rfl
    exact ht hc
  refine Text.dropEndWhile_dropWhile_between (by simpa using ha) (by simpa using hb) ?_ ?_
  · exact fun c hc => hplain c (List.mem_of_head? hc)
  · exact fun c hc => hplain c (List.mem_of_getLast? hc)

theorem unquote_quoted {t : Text} (h : '"' ∉ t) : unquote (quoted t) = t :=
  unquote_between (by simp) (by simp) h

section Items

-- A quoted text is cut into items. Its first quote stays with the first item, and its last quote
-- with the last one.
variable {w a b t : Text} (hw : ∀ c ∈ w, isBlank c = true)
  (ha : ∀ c ∈ a, c = '"') (hb : ∀ c ∈ b, c = '"')

include hw ha hb

theorem words_item (ht : '"' ∉ t) :
    Text.words (unquote (Text.trim (w ++ (a ++ t ++ b)))) = Text.words t := by
  have hmark : ∀ c, c = '"' → isBlank c = false := by
    rintro c rfl
    decide
  obtain ⟨s, hs, hsub, hwords⟩ := Text.exists_trim_between (fun c hc => hmark c (ha c hc))
    (fun c hc => hmark c (hb c hc)) t
  rw [Text.trim_blank_append hw, hs, unquote_between ha hb fun hc => ht (hsub hc), hwords]

theorem comma_not_mem_item (ht : ',' ∉ t) : ',' ∉ w ++ (a ++ t ++ b) := by
  simp only [List.mem_append]
  rintro (hc | (hc | hc) | hc)
  · exact (Text.plain_of_blank (hw _ hc)).1 rfl
  · exact absurd (ha _ hc) (by decide)
  · exact ht hc
  · exact absurd (hb _ hc) (by decide)

end Items

/-- The words of the items that a quoted text is cut into are its words, commas ending them too. -/
theorem flatMap_items_between {w a b t : Text} (hw : ∀ c ∈ w, isBlank c = true)
    (ha : ∀ c ∈ a, c = '"') (hb : ∀ c ∈ b, c = '"') (ht : '"' ∉ t) :
    (List.splitOn ',' (w ++ (a ++ t ++ b))).flatMap
      (fun item => Text.words (unquote (Text.trim item))) = Text.listWords t := by
  induction hlength : t.length using Nat.strong_induction_on generalizing w a t with
  | _ length ih =>
  by_cases hcomma : ',' ∈ t
  · obtain ⟨first, rest, rfl, hfirst⟩ := List.eq_append_cons_of_mem hcomma
    obtain ⟨htfirst, htrest⟩ : '"' ∉ first ∧ '"' ∉ rest := by simpa using ht
    have htext : w ++ (a ++ (first ++ ',' :: rest) ++ b) =
        (w ++ (a ++ first ++ [])) ++ ',' :: ([] ++ ([] ++ rest ++ b)) := by
      simp
    have hshorter : rest.length < length := by
      rw [← hlength, List.length_append, List.length_cons]
      omega
    have hrest := ih rest.length hshorter (w := []) (a := []) (by simp) (by simp) htrest rfl
    rw [htext, List.splitOn_append_cons_self_of_not_mem
      (comma_not_mem_item hw ha (by simp) hfirst), List.flatMap_cons,
      words_item hw ha (by simp) htfirst, Text.listWords_append, Text.listWords_of_not_mem hfirst]
    exact congrArg (Text.words first ++ ·) hrest
  · rw [List.splitOn_eq_singleton (comma_not_mem_item hw ha hb hcomma),
      List.flatMap_singleton, words_item hw ha hb ht, Text.listWords_of_not_mem hcomma]

theorem flatMap_items_intercalate {ts : List Text} (h : ∀ t ∈ ts, '"' ∉ t) {w : Text}
    (hw : ∀ c ∈ w, isBlank c = true) :
    (List.splitOn ',' (w ++ List.intercalate ", " (ts.map quoted))).flatMap
      (fun item => Text.words (unquote (Text.trim item))) = ts.flatMap Text.listWords := by
  induction ts generalizing w with
  | nil =>
      exact flatMap_items_between (a := []) (b := []) (t := []) hw (by simp) (by simp) (by simp)
  | cons t ts ih =>
      have hfirst := flatMap_items_between (a := ['"']) (b := ['"']) hw (by simp) (by simp)
        (h t (by simp))
      cases ts with
      | nil => simpa [quoted] using hfirst
      | cons t' ts =>
          have hrest := ih (fun x hx => h x (by simp [hx])) (w := [' ']) (by decide)
          have htext : w ++ List.intercalate ", " ((t :: t' :: ts).map quoted) =
              (w ++ quoted t) ++ ',' ::
                ([' '] ++ List.intercalate ", " ((t' :: ts).map quoted)) := by
            simp [List.intercalate_cons_cons]
          rw [htext, List.splitOn_append_cons_self, List.flatMap_append, List.flatMap_cons]
          exact congrArg₂ (· ++ ·) hfirst hrest

theorem flatMap_words_readList {ts : List Text} (h : ∀ t ∈ ts, '"' ∉ t) :
    (readList (quotedList ts)).flatMap Text.words = ts.flatMap Text.listWords := by
  have hinner : Text.dropEndWhile (· == ']') ((quotedList ts).dropWhile (· == '[')) =
      List.intercalate ", " (ts.map quoted) := by
    by_cases hts : ts = []
    · subst hts
      rfl
    · obtain ⟨u, hu⟩ := exists_intercalate_quoted ", " hts
      rw [quotedList, hu]
      refine Text.dropEndWhile_dropWhile_between (by simp) (by simp) (by simp) ?_
      rw [List.getLast?_concat]
      simp
  rw [readList, hinner, Text.flatMap_words_filter, List.flatMap_map]
  exact flatMap_items_intercalate h (w := []) (by simp)

end TargetSettings

/-! ### Lines -/

/-- A line with a key, a sign and a value is an assignment. -/
theorem TargetLine.ofText_assignment (key value : Text)
    (hkey : ∀ c ∈ key, isBlank c = false ∧ c ≠ '=')
    (hhead : ∃ c ∈ key.head?, c ≠ '#' ∧ c ≠ '[') (hne : value ≠ []) (hvalue : value.Trimmed) :
    TargetLine.ofText (key ++ " = " ++ value) = .assignment key value := by
  have hkeyTrimmed : key.Trimmed :=
    ⟨fun c hc => (hkey c (List.mem_of_head? hc)).1,
      fun c hc => (hkey c (List.mem_of_getLast? hc)).1⟩
  obtain ⟨c, hc, hcomment, hheading⟩ := hhead
  obtain ⟨rest, rfl⟩ := List.head?_eq_some_iff.mp hc
  have hline : (c :: rest) ++ " = " ++ value = (c :: rest) ++ [' '] ++ '=' :: ' ' :: value := by
    simp
  have htrimmed : Text.Trimmed ((c :: rest) ++ [' '] ++ '=' :: ' ' :: value) := by
    refine ⟨by simpa using (hkey c (by simp)).1, fun d hd => hvalue.last d ?_⟩
    rwa [List.getLast?_append_of_ne_nil _ (by simp), List.getLast?_cons_cons,
      List.getLast?_cons_of_ne_nil hne] at hd
  have hcut : Text.cut? '=' ((c :: rest) ++ [' '] ++ '=' :: ' ' :: value) =
      some (c :: rest ++ [' '], ' ' :: value) := by
    refine Text.cut?_append (fun h => ?_) _
    rcases List.mem_append.mp h with h | h
    · exact (hkey _ h).2 rfl
    · simp at h
  have htrimKey : Text.trim (c :: rest ++ [' ']) = c :: rest := by
    rw [Text.trim, Text.trimEnd_append_blank _ (by decide), ← Text.trim,
      Text.trim_of_trimmed hkeyTrimmed]
  have htrimValue : Text.trim (' ' :: value) = value := by
    rw [Text.trim_cons_of_blank (by decide), Text.trim_of_trimmed hvalue]
  have hnone : heading? ((c :: rest) ++ [' '] ++ '=' :: ' ' :: value) = none := by
    simp [heading?, hheading]
  rw [hline, ofText, Text.trim_of_trimmed htrimmed, ofTrimmed, hnone, hcut,
    if_neg (by simpa using hcomment)]
  exact congrArg₂ assignment htrimKey htrimValue

/-- The lines that set a generator's command and its arguments. -/
def generatorLines (command : Text) (args : List Text) : List Text :=
  ["command = " ++ quoted command, "args = " ++ quotedList args]

theorem ofText_generatorLines (command : Text) (args : List Text) :
    (generatorLines command args).map TargetLine.ofText =
      [.assignment "command" (quoted command), .assignment "args" (quotedList args)] := by
  have hcommand : TargetLine.ofText ("command = " ++ quoted command) =
      .assignment "command" (quoted command) :=
    TargetLine.ofText_assignment "command" _ (by decide) ⟨'c', by decide⟩ (by simp [quoted])
      (trimmed_between (by decide) (by decide) command)
  have hargs : TargetLine.ofText ("args = " ++ quotedList args) =
      .assignment "args" (quotedList args) :=
    TargetLine.ofText_assignment "args" _ (by decide) ⟨'a', by decide⟩ (by simp [quotedList])
      (trimmed_between (by decide) (by decide) _)
  simp only [generatorLines, List.map_cons, List.map_nil, hcommand, hargs]

/-- Settings with a command make the same target, which has a command line. -/
theorem TargetSettings.target_with_command {s : TargetSettings} {t : Target}
    (h : s.target = .ok t) {command : Text} (hcommand : command ≠ []) (arguments : List Text) :
    TargetSettings.target { s with command, arguments } =
      .ok { t with generator := some (List.intercalate " " (command :: arguments)) } := by
  have hempty : command.isEmpty = false := by simpa using hcommand
  unfold target at h ⊢
  by_cases hname : s.name.isEmpty = true
  · simp [hname] at h
  · rw [if_neg hname] at h ⊢
    cases hrevision : s.revision with
    | none => simp [hrevision] at h
    | some revision =>
        cases revision with
        | zero => simp [hrevision] at h
        | succ revision =>
            simp only [hrevision] at h
            split at h
            · cases h
            · cases h
              simp [hempty]

theorem GeneratorCommand.ofLine?_intercalate {command : Text} (hne : command ≠ [])
    (hword : ∀ c ∈ command, isBlank c = false) (arguments : List Text) :
    ofLine? (List.intercalate " " (command :: arguments)) =
      some { command, args := arguments.flatMap Text.words } := by
  rw [ofLine?, Text.words_intercalate, List.flatMap_cons, Text.words_of_forall_not hne hword]
  rfl

namespace Target

theorem linesOf_unlines {lines : List Text} (h : ∀ line ∈ lines, '\n' ∉ line) :
    linesOf (Text.unlines lines) = lines.map TargetLine.ofText ++ [.ignored] := by
  rw [linesOf, Text.splitOn_unlines h, List.map_append]
  rfl

theorem valuesOf_unlines {lines : List Text} (h : ∀ line ∈ lines, '\n' ∉ line)
    (setting : Setting) :
    valuesOf (Text.unlines lines) setting =
      TargetLine.values [] (lines.map TargetLine.ofText) setting := by
  rw [valuesOf, linesOf_unlines h, TargetLine.values_append]
  exact List.append_nil _

/-- A place in the generator's section of a target file that sets neither a command nor arguments:
the lines before it and those after it. -/
structure GeneratorPlace (before after : List Text) : Prop where
  lines : ∀ line ∈ before ++ after, '\n' ∉ line
  heading : TargetLine.headingAfter [] (before.map TargetLine.ofText) = "codegen"
  command_unset : valuesOf (Text.unlines (before ++ after)) .command = []
  arguments_unset : valuesOf (Text.unlines (before ++ after)) .arguments = []

/-- A command and arguments that can be written in quotes, on one line each. -/
structure Quotable (command : Text) (args : List Text) : Prop where
  command_ne_nil : command ≠ []
  command_plain : ∀ c ∈ command, isBlank c = false ∧ c ≠ '"'
  args_plain : ∀ a ∈ args, a ≠ [] ∧ '"' ∉ a ∧ '\n' ∉ a

theorem Quotable.lines {command : Text} {args : List Text} (h : Quotable command args) :
    ∀ line ∈ generatorLines command args, '\n' ∉ line := by
  have hcommand : '\n' ∉ command := by
    intro hc
    have hblank := (h.command_plain _ hc).1
    revert hblank
    decide
  have hargs : '\n' ∉ List.intercalate ", " (args.map quoted) := by
    refine Text.not_mem_intercalate (by decide) fun t ht => ?_
    obtain ⟨a, ha, rfl⟩ := List.mem_map.mp ht
    simpa [quoted] using (h.args_plain a ha).2.2
  simpa [generatorLines, quoted, quotedList, hcommand] using hargs

section GeneratorPlace

variable {before after : List Text} (h : GeneratorPlace before after) {command : Text}
  {args : List Text} (hquotable : Quotable command args)

include h

theorem GeneratorPlace.valuesOf_eq (setting : Setting) :
    valuesOf (Text.unlines (before ++ after)) setting =
      TargetLine.values [] (before.map TargetLine.ofText) setting ++
        TargetLine.values "codegen" (after.map TargetLine.ofText) setting := by
  rw [valuesOf_unlines h.lines, List.map_append, TargetLine.values_append, h.heading]

include hquotable

theorem GeneratorPlace.lines_with :
    ∀ line ∈ before ++ (generatorLines command args ++ after), '\n' ∉ line := by
  obtain ⟨hbefore, hafter⟩ := List.forall_mem_append.mp h.lines
  exact List.forall_mem_append.mpr
    ⟨hbefore, List.forall_mem_append.mpr ⟨hquotable.lines, hafter⟩⟩

theorem GeneratorPlace.valuesOf_with (setting : Setting) :
    valuesOf (Text.unlines (before ++ (generatorLines command args ++ after))) setting =
      TargetLine.values [] (before.map TargetLine.ofText) setting ++
        ((if .command = setting then [quoted command] else []) ++
          ((if .arguments = setting then [quotedList args] else []) ++
            TargetLine.values "codegen" (after.map TargetLine.ofText) setting)) := by
  have hcommand : Setting.ofPlace? "codegen" "command" = some .command := by decide +kernel
  have hargs : Setting.ofPlace? "codegen" "args" = some .arguments := by decide +kernel
  rw [valuesOf_unlines (h.lines_with hquotable), List.map_append, TargetLine.values_append,
    h.heading, List.map_append, ofText_generatorLines]
  simp only [List.cons_append, List.nil_append, TargetLine.values, hcommand, hargs,
    Option.some.injEq]

/-- Only the command and the arguments differ from the settings of the file without them. -/
theorem GeneratorPlace.withValues_with :
    TargetSettings.withValues {}
        (valuesOf (Text.unlines (before ++ (generatorLines command args ++ after)))) =
      { TargetSettings.withValues {} (valuesOf (Text.unlines (before ++ after))) with
        command, arguments := TargetSettings.readList (quotedList args) } := by
  have hcommand := h.command_unset
  have harguments := h.arguments_unset
  rw [h.valuesOf_eq, List.append_eq_nil_iff] at hcommand harguments
  have hunquote : TargetSettings.unquote (quoted command) = command :=
    TargetSettings.unquote_quoted fun hc => (hquotable.command_plain _ hc).2 rfl
  simp only [TargetSettings.withValues, h.valuesOf_with hquotable, h.valuesOf_eq, hcommand,
    harguments, reduceCtorEq, if_true, if_false, List.nil_append, List.append_nil,
    TargetSettings.latest, List.getLast?_singleton, Option.map_some, Option.getD_some, hunquote]

theorem GeneratorPlace.unreadable_not_mem
    (hlines : ∀ line, .unreadable line ∉ linesOf (Text.unlines (before ++ after))) (line : Text) :
    .unreadable line ∉
      linesOf (Text.unlines (before ++ (generatorLines command args ++ after))) := by
  have hline := hlines line
  rw [linesOf_unlines h.lines, List.map_append] at hline
  rw [linesOf_unlines (h.lines_with hquotable), List.map_append, List.map_append,
    ofText_generatorLines]
  simpa using hline

/-- With a command and arguments a file is accepted as the same target, which has a command line. -/
theorem GeneratorPlace.parse_with {t : Target}
    (hparse : parse (Text.unlines (before ++ after)) = .ok t) :
    parse (Text.unlines (before ++ (generatorLines command args ++ after))) =
      .ok { t with
        generator :=
          some (List.intercalate " " (command :: TargetSettings.readList (quotedList args))) } := by
  obtain ⟨hlines, hrevisions, htarget⟩ := parse_eq_ok_iff.mp hparse
  refine parse_eq_ok_iff.mpr ⟨h.unreadable_not_mem hquotable hlines, ?_, ?_⟩
  · rw [h.valuesOf_eq] at hrevisions
    simpa [h.valuesOf_with hquotable] using hrevisions
  · rw [h.withValues_with hquotable]
    exact TargetSettings.target_with_command htarget hquotable.command_ne_nil _

end GeneratorPlace

/-- A generator that is configured by a command and a list of arguments is started with that command
and with the words of the arguments, in their order. A blank or a comma ends a word, so that the
arguments arrive as they are exactly if neither is in one of them. -/
theorem configured_arguments_words {before after : List Text} (hplace : GeneratorPlace before after)
    {command : Text} {args : List Text} (hquotable : Quotable command args) {t : Target}
    (h : parse (Text.unlines (before ++ after)) = .ok t) :
    ∃ line,
      parse (Text.unlines (before ++ (generatorLines command args ++ after))) =
        .ok { t with generator := some line } ∧
      GeneratorCommand.ofLine? line = some { command, args := args.flatMap Text.listWords } ∧
      (args.flatMap Text.listWords = args ↔
        ∀ a ∈ args, ∀ c ∈ a, isBlank c = false ∧ c ≠ ',') := by
  refine ⟨_, hplace.parse_with hquotable h, ?_, ?_⟩
  · rw [GeneratorCommand.ofLine?_intercalate hquotable.command_ne_nil
      fun c hc => (hquotable.command_plain c hc).1,
      TargetSettings.flatMap_words_readList fun a ha => (hquotable.args_plain a ha).2.1]
  · exact Text.flatMap_listWords_eq_self_iff fun a ha => (hquotable.args_plain a ha).1

/-- The lines of a file before the place for a command and arguments. -/
def chipBefore : List Text :=
  ["# Kepler", "[codegen]"]

/-- The lines of the same file after that place. -/
def chipAfter : List Text :=
  ["", "[target]", "name = \"gk20a\"", "revision = 0xea"]

theorem generatorPlace_chip : GeneratorPlace chipBefore chipAfter where
  lines := by decide +kernel
  heading := by decide +kernel
  command_unset := by decide +kernel
  arguments_unset := by decide +kernel

theorem configured_arguments_words_chip :
    GeneratorPlace chipBefore chipAfter ∧ Quotable "nvcg" ["--chip", "gk20a", "-D a,b"] ∧
    ∃ t line,
      parse (Text.unlines (chipBefore ++ chipAfter)) = .ok t ∧
      parse (Text.unlines
        (chipBefore ++ (generatorLines "nvcg" ["--chip", "gk20a", "-D a,b"] ++ chipAfter))) =
        .ok { t with generator := some line } ∧
      GeneratorCommand.ofLine? line =
        some { command := "nvcg", args := ["--chip", "gk20a", "-D", "a", "b"] } := by
  have hquotable : Quotable "nvcg" ["--chip", "gk20a", "-D a,b"] :=
    ⟨by decide, by decide, by decide⟩
  have h : parse (Text.unlines (chipBefore ++ chipAfter)) =
      .ok { name := "gk20a", displayName := "gk20a", family := [], revision := 0xea,
            generator := none } := by
    decide +kernel
  have hwords : List.flatMap Text.listWords ["--chip", "gk20a", "-D a,b"] =
      ["--chip", "gk20a", "-D", "a", "b"] := by
    decide +kernel
  obtain ⟨line, hparse, hline, -⟩ := configured_arguments_words generatorPlace_chip hquotable h
  rw [hwords] at hline
  exact ⟨generatorPlace_chip, hquotable, _, line, h, hparse, hline⟩

/-- An argument with a blank or a comma in it arrives as two. -/
theorem configured_argument_split_chip :
    GeneratorPlace chipBefore chipAfter ∧
    ∀ arg ∈ (["my reply.bin", "my,reply.bin"] : List Text),
      Quotable "cat" [arg] ∧
      parse (Text.unlines (chipBefore ++ (generatorLines "cat" [arg] ++ chipAfter))) =
        .ok { name := "gk20a", displayName := "gk20a", family := [], revision := 0xea,
              generator := some "cat my reply.bin".toList } ∧
      GeneratorCommand.ofLine? "cat my reply.bin" =
        some { command := "cat", args := ["my", "reply.bin"] } ∧
      ["my".toList, "reply.bin".toList] ≠ [arg] := by
  refine ⟨generatorPlace_chip, fun arg harg => ⟨⟨by decide, by decide, ?_⟩, ?_, ?_, by simp⟩⟩
  · revert arg
    decide +kernel
  · revert arg
    decide +kernel
  · decide +kernel

end Target

end ShaderBackend
