import Mathlib.Data.List.Perm.Basic
import Mathlib.Logic.Relation
import ShaderBackend.Proofs.Target.Settings

/-!
The order of a target file. A file is some lines before its first heading and then sections, each of
which starts with its heading. Sections can change places, and so can the lines of one section, and
lines that say nothing can come and go. As long as the values of each setting keep their order the
target stays the same.
-/

namespace ShaderBackend

/-- A section of a target file: its heading, and the lines up to the next one. -/
structure TargetSection where
  headingLine : Text
  lines : List Text
  deriving DecidableEq, Repr

/-- A target file as the lines before the first heading and the sections after them. -/
structure TargetLayout where
  head : List Text
  sections : List TargetSection
  deriving DecidableEq, Repr

namespace TargetLine

/-- The value that a line of a section assigns to a setting. -/
def value? (heading : Text) (setting : Setting) (line : Text) : Option Text :=
  match ofText line with
  | .assignment key value =>
    if Setting.ofPlace? heading key = some setting then some value else none
  | _ => none

/-- A line that says nothing: a blank line, a comment, or an assignment to a key that stands for
nothing in its section. -/
def isNeutral (heading line : Text) : Bool :=
  match ofText line with
  | .ignored => true
  | .assignment key _ => (Setting.ofPlace? heading key).isNone
  | _ => false

theorem ne_unreadable_of_isNeutral {heading line : Text} (h : isNeutral heading line = true)
    (t : Text) : ofText line ≠ .unreadable t := by
  intro hline
  rw [isNeutral, hline] at h
  cases h

theorem value?_of_isNeutral {heading line : Text} (h : isNeutral heading line = true)
    (setting : Setting) : value? heading setting line = none := by
  rw [isNeutral] at h
  rw [value?]
  cases hline : ofText line with
  | assignment key value =>
      rw [hline] at h
      simp [Option.isNone_iff_eq_none.mp h]
  | ignored | heading _ | unreadable _ => rfl

end TargetLine

/-- The name of a section, as its heading gives it. -/
def TargetSection.name (s : TargetSection) : Text :=
  match TargetLine.ofText s.headingLine with
  | .heading name => name
  | _ => []

/-- The values that a section assigns to a setting. -/
def TargetSection.values (s : TargetSection) (setting : Setting) : List Text :=
  s.lines.filterMap (TargetLine.value? s.name setting)

namespace TargetLayout

def ofLines : List Text → TargetLayout
  | [] => ⟨[], []⟩
  | line :: rest =>
    let layout := ofLines rest
    match TargetLine.ofText line with
    | .heading _ => ⟨[], ⟨line, layout.head⟩ :: layout.sections⟩
    | _ => ⟨line :: layout.head, layout.sections⟩

/-- How a text is laid out. -/
def ofText (content : Text) : TargetLayout :=
  ofLines (List.splitOn '\n' content)

/-- The lines of a file, in their order. -/
def lines (l : TargetLayout) : List Text :=
  l.head ++ l.sections.flatMap fun s => s.headingLine :: s.lines

/-- The values that a file assigns to a setting, in their order. -/
def values (l : TargetLayout) (setting : Setting) : List Text :=
  l.head.filterMap (TargetLine.value? [] setting) ++ l.sections.flatMap (·.values setting)

/-! ### Layouts and lines -/

theorem lines_ofLines (lines : List Text) : (ofLines lines).lines = lines := by
  induction lines with
  | nil => rfl
  | cons line rest ih =>
      rw [TargetLayout.lines] at ih
      rw [ofLines]
      split <;> simp [TargetLayout.lines, ih]

theorem lines_ofText (content : Text) : (ofText content).lines = List.splitOn '\n' content :=
  lines_ofLines _

/-- The values of lines are those before the first heading and those of the sections. -/
theorem values_lines (heading : Text) (lines : List Text) (setting : Setting) :
    TargetLine.values heading (lines.map TargetLine.ofText) setting =
      (ofLines lines).head.filterMap (TargetLine.value? heading setting) ++
        (ofLines lines).sections.flatMap (·.values setting) := by
  induction lines generalizing heading with
  | nil => rfl
  | cons line rest ih =>
      rw [ofLines, List.map_cons]
      cases hline : TargetLine.ofText line with
      | heading name =>
          simp [TargetLine.values, TargetSection.values, TargetSection.name, hline, ih name]
      | assignment key value =>
          by_cases hplace : Setting.ofPlace? heading key = some setting <;>
            simp [TargetLine.values, TargetLine.value?, hline, hplace, ih heading]
      | ignored | unreadable _ =>
          simp [TargetLine.values, TargetLine.value?, hline, ih heading]

theorem values_ofText (content : Text) : (ofText content).values = Target.valuesOf content :=
  funext fun setting => (values_lines [] _ setting).symm

/-! ### Edits -/

/-- A change to the lines of one section. -/
inductive LineEdit (heading : Text) : List Text → List Text → Prop
  | permute {lines lines' : List Text} (h : lines.Perm lines') : LineEdit heading lines lines'
  | insert (line : Text) (before after : List Text) (h : TargetLine.isNeutral heading line = true) :
      LineEdit heading (before ++ after) (before ++ line :: after)
  | delete (line : Text) (before after : List Text) (h : TargetLine.isNeutral heading line = true) :
      LineEdit heading (before ++ line :: after) (before ++ after)

/-- A change to a file: to the lines before the first heading, to those of a section, or to the
order of the sections. -/
inductive Edit : TargetLayout → TargetLayout → Prop
  | head {head head' : List Text} (sections : List TargetSection) (h : LineEdit [] head head') :
      Edit ⟨head, sections⟩ ⟨head', sections⟩
  | lines {s : TargetSection} {lines' : List Text} (head : List Text)
      (before after : List TargetSection) (h : LineEdit s.name s.lines lines') :
      Edit ⟨head, before ++ s :: after⟩ ⟨head, before ++ ⟨s.headingLine, lines'⟩ :: after⟩
  | permute {sections sections' : List TargetSection} (head : List Text)
      (h : sections.Perm sections') : Edit ⟨head, sections⟩ ⟨head, sections'⟩

/-- A file made out of another one by any number of edits, after which the values of every setting
that has more than one stand in the order in which they stood. -/
structure Rearranged (l l' : TargetLayout) : Prop where
  edits : Relation.ReflTransGen Edit l l'
  order : ∀ setting, 1 < (l.values setting).length → l'.values setting = l.values setting

/-! ### What edits keep -/

/-- Every line is a line of the format. -/
def Readable (lines : List Text) : Prop :=
  ∀ line ∈ lines, ∀ t, TargetLine.ofText line ≠ .unreadable t

theorem readable_ofText_iff {content : Text} :
    Readable (ofText content).lines ↔ ∀ t, .unreadable t ∉ Target.linesOf content := by
  rw [lines_ofText]
  simp only [Readable, Target.linesOf, List.mem_map, not_exists, not_and]
  exact ⟨fun h t line hline => h line hline t, fun h line hline t => h t line hline⟩

theorem readable_append {lines more : List Text} :
    Readable (lines ++ more) ↔ Readable lines ∧ Readable more :=
  List.forall_mem_append

theorem readable_cons {line : Text} {lines : List Text} :
    Readable (line :: lines) ↔ (∀ t, TargetLine.ofText line ≠ .unreadable t) ∧ Readable lines :=
  List.forall_mem_cons

theorem readable_lines {l : TargetLayout} :
    Readable l.lines ↔
      Readable l.head ∧ ∀ s ∈ l.sections, Readable (s.headingLine :: s.lines) := by
  rw [lines, readable_append]
  simp only [Readable, List.forall_mem_flatMap]

section LineEdit

variable {heading : Text} {lines lines' : List Text}

theorem LineEdit.readable (h : LineEdit heading lines lines') (hlines : Readable lines) :
    Readable lines' := by
  cases h with
  | permute h => exact fun line hline => hlines line (h.mem_iff.mpr hline)
  | insert line before after hneutral =>
      rw [readable_append] at hlines ⊢
      have hline := TargetLine.ne_unreadable_of_isNeutral hneutral
      exact ⟨hlines.1, readable_cons.mpr ⟨hline, hlines.2⟩⟩
  | delete line before after hneutral =>
      rw [readable_append, readable_cons] at hlines
      exact readable_append.mpr ⟨hlines.1, hlines.2.2⟩

theorem LineEdit.values_perm (h : LineEdit heading lines lines') (setting : Setting) :
    (lines.filterMap (TargetLine.value? heading setting)).Perm
      (lines'.filterMap (TargetLine.value? heading setting)) := by
  cases h with
  | permute h => exact h.filterMap _
  | insert line before after hneutral | delete line before after hneutral =>
      rw [List.filterMap_append, List.filterMap_append,
        List.filterMap_cons_none (TargetLine.value?_of_isNeutral hneutral setting)]

end LineEdit

variable {l l' : TargetLayout}

theorem Edit.readable (h : Edit l l') (hl : Readable l.lines) : Readable l'.lines := by
  rw [readable_lines] at hl ⊢
  obtain ⟨hhead, hsections⟩ := hl
  cases h with
  | head sections h => exact ⟨h.readable hhead, hsections⟩
  | lines head before after h =>
      simp only [List.forall_mem_append, List.forall_mem_cons, readable_cons] at hsections ⊢
      obtain ⟨hbefore, ⟨hheading, hlines⟩, hafter⟩ := hsections
      exact ⟨hhead, hbefore, ⟨hheading, h.readable hlines⟩, hafter⟩
  | permute head h => exact ⟨hhead, fun s hs => hsections s (h.mem_iff.mpr hs)⟩

/-- An edit can change the order of the values of a setting, and nothing else about them. -/
theorem Edit.values_perm (h : Edit l l') (setting : Setting) :
    (l.values setting).Perm (l'.values setting) := by
  cases h with
  | head sections h => exact (h.values_perm setting).append_right _
  | lines head before after h =>
      simp only [values, List.flatMap_append, List.flatMap_cons]
      exact (((h.values_perm setting).append_right _).append_left _).append_left _
  | permute head h => exact (h.flatMap_right _).append_left _

namespace Rearranged

theorem readable (h : Rearranged l l') (hl : Readable l.lines) : Readable l'.lines := by
  obtain ⟨hedits, -⟩ := h
  induction hedits with
  | refl => exact hl
  | tail _ hedit ih => exact hedit.readable ih

theorem values_perm (h : Rearranged l l') (setting : Setting) :
    (l.values setting).Perm (l'.values setting) := by
  obtain ⟨hedits, -⟩ := h
  induction hedits with
  | refl => exact .refl _
  | tail _ hedit ih => exact ih.trans (hedit.values_perm setting)

theorem values_eq (h : Rearranged l l') (setting : Setting) :
    l'.values setting = l.values setting := by
  have hperm := h.values_perm setting
  -- One value has no order, and for more of them it is kept.
  match hvalues : l.values setting with
  | [] => exact List.Perm.nil_eq (hvalues ▸ hperm) |>.symm
  | [value] => exact List.singleton_perm.mp (hvalues ▸ hperm) |>.symm
  | _ :: _ :: _ =>
      rw [← hvalues]
      exact h.order setting (by simp [hvalues])

end Rearranged

end TargetLayout

/-- An accepted file has a name, a name to show and a revision above zero. Every file that is made
out of it by changing the order of its sections and of the lines in a section, and by inserting and
deleting lines that say nothing, is accepted as the same target, if the values of each setting keep
their order. -/
theorem Target.parse_rearranged (content : Text) (t : Target) (h : parse content = .ok t) :
    (t.name ≠ [] ∧ t.displayName ≠ [] ∧ 0 < t.revision) ∧
    ∀ content', (TargetLayout.ofText content).Rearranged (TargetLayout.ofText content') →
      parse content' = .ok t := by
  obtain ⟨hlines, hrevisions, htarget⟩ := parse_eq_ok_iff.mp h
  refine ⟨TargetSettings.complete_of_target htarget, fun content' hrearranged => ?_⟩
  have hvalues : valuesOf content' = valuesOf content := by
    rw [← TargetLayout.values_ofText, ← TargetLayout.values_ofText]
    exact funext hrearranged.values_eq
  have hlines' : ∀ line, .unreadable line ∉ linesOf content' := by
    rw [← TargetLayout.readable_ofText_iff] at hlines ⊢
    exact hrearranged.readable hlines
  exact parse_eq_ok_iff.mpr ⟨hlines', hvalues ▸ hrevisions, hvalues ▸ htarget⟩

/-- A file in which the name is set twice. -/
def twoNames : Text :=
  List.intercalate "\n" ["name = lost", "[target]", "name = \"old\"", "revision = 0x12b",
    "name = \"nv\"", "[codegen]", "command = cg"]

/-- The same with its sections exchanged, a comment, and a key that stands for nothing. -/
def twoNamesLater : Text :=
  List.intercalate "\n" ["# note", "[codegen]", "command = cg", "speed = 3", "[target]",
    "revision = 0x12b", "name = \"old\"", "name = \"nv\""]

theorem Target.parse_rearranged_twoNames :
    parse twoNames =
      .ok { name := "nv", displayName := "nv", family := [], revision := 0x12b,
            generator := some "cg".toList } ∧
    (TargetLayout.ofText twoNames).Rearranged (TargetLayout.ofText twoNamesLater) ∧
    parse twoNamesLater = parse twoNames := by
  have h : parse twoNames =
      .ok { name := "nv", displayName := "nv", family := [], revision := 0x12b,
            generator := some "cg".toList } := by
    decide +kernel
  have hlayout : TargetLayout.ofText twoNames =
      ⟨["name = lost"], [⟨"[target]", ["name = \"old\"", "revision = 0x12b", "name = \"nv\""]⟩,
        ⟨"[codegen]", ["command = cg"]⟩]⟩ := by
    decide +kernel
  have hlater : TargetLayout.ofText twoNamesLater =
      ⟨["# note"], [⟨"[codegen]", ["command = cg", "speed = 3"]⟩,
        ⟨"[target]", ["revision = 0x12b", "name = \"old\"", "name = \"nv\""]⟩]⟩ := by
    decide +kernel
  have hrearranged :
      (TargetLayout.ofText twoNames).Rearranged (TargetLayout.ofText twoNamesLater) := by
    rw [hlayout, hlater]
    constructor
    · refine .head (.head _ (.delete _ [] [] (by decide +kernel))) ?_
      refine .head (.head _ (.insert "# note" [] [] (by decide +kernel))) ?_
      refine .head (.lines _ [] _ (.permute (.swap _ _ _))) ?_
      refine .head (.lines _ [_] [] (.insert "speed = 3" [_] [] (by decide +kernel))) ?_
      exact .single (.permute _ (.swap _ _ _))
    · intro setting
      cases setting <;> decide +kernel
  exact ⟨h, hrearranged, ((parse_rearranged _ _ h).2 _ hrearranged).trans h.symm⟩

end ShaderBackend
