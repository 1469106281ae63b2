import ShaderBackend.Proofs.Except
import ShaderBackend.Target

/-!
What a target file says, setting by setting. Each of the six settings has a list of values: those
that the file assigns to it, in their order. The lines of a file are read exactly if every one of
them is a line of the format and every revision is a number, and then each setting has its last
value, whatever stands between the assignments.
-/

namespace ShaderBackend

/-- What a target file can set. -/
inductive Setting where
  | name
  | displayName
  | family
  | revision
  | command
  | arguments
  deriving DecidableEq, Repr

namespace Setting

def all : List Setting :=
  [name, displayName, family, revision, command, arguments]

/-- The section and the key of a setting. -/
def place : Setting → Text × Text
  | name => ("target", "name")
  | displayName => ("target", "display_name")
  | family => ("target", "family")
  | revision => ("target", "revision")
  | command => ("codegen", "command")
  | arguments => ("codegen", "args")

/-- The setting that a key stands for in a section. -/
def ofPlace? (heading key : Text) : Option Setting :=
  all.find? (·.place == (heading, key))

theorem mem_all (setting : Setting) : setting ∈ all := by
  cases setting <;> decide

theorem place_of_ofPlace? {heading key : Text} {setting : Setting}
    (h : ofPlace? heading key = some setting) : setting.place = (heading, key) := by
  simpa using List.find?_some h

theorem place_ne_of_ofPlace? {heading key : Text} (h : ofPlace? heading key = none)
    (setting : Setting) : setting.place ≠ (heading, key) := by
  simpa using List.find?_eq_none.mp h setting (mem_all setting)

end Setting

namespace TargetSettings

/-! ### One assignment -/

/-- Take over a value of a setting. -/
def set (s : TargetSettings) (value : Text) : Setting → Except TargetError TargetSettings
  | .name => .ok { s with name := unquote value }
  | .displayName => .ok { s with displayName := unquote value }
  | .family => .ok { s with family := unquote value }
  | .revision =>
    match readRevision? value with
    | some revision => .ok { s with revision := some revision }
    | none => .error (.invalidRevision value)
  | .command => .ok { s with command := unquote value }
  | .arguments => .ok { s with arguments := readList value }

theorem assign_of_some {heading key : Text} {setting : Setting}
    (h : Setting.ofPlace? heading key = some setting) (s : TargetSettings) (value : Text) :
    s.assign heading key value = s.set value setting := by
  obtain ⟨rfl, rfl⟩ := Prod.mk.inj (Setting.place_of_ofPlace? h)
  cases setting <;> rfl

theorem assign_of_none {heading key : Text} (h : Setting.ofPlace? heading key = none)
    (s : TargetSettings) (value : Text) : s.assign heading key value = .ok s := by
  have hplace := Setting.place_ne_of_ofPlace? h
  unfold assign
  split
  · rename_i hheading
    rw [if_neg fun hkey => hplace .name (Prod.ext hheading.symm hkey.symm),
      if_neg fun hkey => hplace .displayName (Prod.ext hheading.symm hkey.symm),
      if_neg fun hkey => hplace .family (Prod.ext hheading.symm hkey.symm),
      if_neg fun hkey => hplace .revision (Prod.ext hheading.symm hkey.symm)]
  · split
    · rename_i hheading
      rw [if_neg fun hkey => hplace .command (Prod.ext hheading.symm hkey.symm),
        if_neg fun hkey => hplace .arguments (Prod.ext hheading.symm hkey.symm)]
    · rfl

/-! ### Values of settings -/

/-- The last of the values of a setting as it is read, or what was there before. -/
def latest {α : Type} (read : Text → α) (old : α) (values : List Text) : α :=
  (values.getLast?.map read).getD old

theorem latest_append {α : Type} (read : Text → α) (old : α) (values more : List Text) :
    latest read old (values ++ more) = latest read (latest read old values) more := by
  rw [latest, List.getLast?_append]
  cases hmore : more.getLast? with
  | none => simp [latest, hmore]
  | some value => simp [latest, hmore]

/-- The settings after some values of each, of which the last one counts. -/
def withValues (s : TargetSettings) (values : Setting → List Text) : TargetSettings where
  name := latest unquote s.name (values .name)
  displayName := latest unquote s.displayName (values .displayName)
  family := latest unquote s.family (values .family)
  revision := latest readRevision? s.revision (values .revision)
  command := latest unquote s.command (values .command)
  arguments := latest readList s.arguments (values .arguments)

@[simp] theorem withValues_nil (s : TargetSettings) : (s.withValues fun _ => []) = s := rfl

theorem withValues_append (s : TargetSettings) (values more : Setting → List Text) :
    s.withValues (fun setting => values setting ++ more setting) =
      (s.withValues values).withValues more := by
  simp only [withValues, latest_append]

/-- Taking over a value fails only if it is a revision that is no number. -/
theorem set_eq_ok_iff {s s' : TargetSettings} {value : Text} {setting : Setting} :
    s.set value setting = .ok s' ↔
      (setting = .revision → readRevision? value ≠ none) ∧
        s' = s.withValues fun other => if setting = other then [value] else [] := by
  cases setting with
  | revision =>
      rw [set]
      cases hread : readRevision? value with
      | none => simp
      | some revision => simp [withValues, latest, hread, eq_comm]
  | name | displayName | family | command | arguments => simp [set, withValues, latest, eq_comm]

end TargetSettings

/-! ### Lines of a file -/

/-- The values that lines assign to a setting, in their order, from a section on. -/
def TargetLine.values (heading : Text) : List TargetLine → Setting → List Text
  | [], _ => []
  | .heading name :: rest, setting => values name rest setting
  | .assignment key value :: rest, setting =>
    (if Setting.ofPlace? heading key = some setting then [value] else []) ++
      values heading rest setting
  | _ :: rest, setting => values heading rest setting

/-- The section in which lines end that start in a given one. -/
def TargetLine.headingAfter (heading : Text) : List TargetLine → Text
  | [] => heading
  | .heading name :: rest => headingAfter name rest
  | _ :: rest => headingAfter heading rest

theorem TargetLine.values_append (heading : Text) (lines more : List TargetLine)
    (setting : Setting) :
    values heading (lines ++ more) setting =
      values heading lines setting ++ values (headingAfter heading lines) more setting := by
  induction lines generalizing heading with
  | nil => rfl
  | cons line lines ih =>
      cases line with
      | assignment key value => simp [values, headingAfter, ih]
      | ignored | heading _ | unreadable _ => simp [values, headingAfter, ih]

namespace TargetSettings

/-- An assignment adds its value to the values of its setting, if it has one. -/
theorem assign_eq_ok_iff {s s' : TargetSettings} {heading key value : Text} :
    s.assign heading key value = .ok s' ↔
      (Setting.ofPlace? heading key = some .revision → readRevision? value ≠ none) ∧
        s' = s.withValues (TargetLine.values heading [.assignment key value]) := by
  simp only [TargetLine.values, List.append_nil]
  cases hplace : Setting.ofPlace? heading key with
  | none =>
      rw [assign_of_none hplace]
      simp [eq_comm]
  | some setting =>
      rw [assign_of_some hplace, set_eq_ok_iff]
      simp only [Option.some.injEq]

/-- Lines are read exactly if each is a line of the format and every revision is a number. What is
read is the last value of each setting. -/
theorem readLines_eq_ok_iff {s s' : TargetSettings} {heading : Text} {lines : List TargetLine} :
    readLines s heading lines = .ok s' ↔
      (∀ line, .unreadable line ∉ lines) ∧
      (∀ value ∈ TargetLine.values heading lines .revision, readRevision? value ≠ none) ∧
        s' = s.withValues (TargetLine.values heading lines) := by
  induction lines generalizing s heading with
  | nil => simp [readLines, TargetLine.values, eq_comm]
  | cons line lines ih =>
      cases line with
      | ignored => simp [readLines, TargetLine.values, ih]
      | heading name => simp [readLines, TargetLine.values, ih]
      | unreadable line =>
          refine ⟨fun h => ?_, fun h => absurd List.mem_cons_self (h.1 line)⟩
          cases h
      | assignment key value =>
          -- The values of the first line come in front of those of the others.
          have hvalues : TargetLine.values heading (.assignment key value :: lines) =
              fun setting => TargetLine.values heading [.assignment key value] setting ++
                TargetLine.values heading lines setting := by
            funext setting
            exact TargetLine.values_append heading [.assignment key value] lines setting
          have hread : (∀ v ∈ TargetLine.values heading [.assignment key value] .revision,
              readRevision? v ≠ none) ↔
              (Setting.ofPlace? heading key = some .revision → readRevision? value ≠ none) := by
            by_cases hplace : Setting.ofPlace? heading key = some .revision <;>
              simp [TargetLine.values, hplace]
          rw [readLines, Except.bind_eq_ok_iff, hvalues, withValues_append]
          simp only [assign_eq_ok_iff, ih, List.forall_mem_append, hread, List.mem_cons,
            reduceCtorEq, false_or]
          constructor
          · rintro ⟨_, ⟨hfirst, rfl⟩, hlines, hrest, rfl⟩
            exact ⟨hlines, ⟨hfirst, hrest⟩, rfl⟩
          · rintro ⟨hlines, ⟨hfirst, hrest⟩, rfl⟩
            exact ⟨_, ⟨hfirst, rfl⟩, hlines, hrest, rfl⟩

/-! ### Targets -/

/-- A target has a name, a name to show, and a revision that is not zero. -/
theorem complete_of_target {s : TargetSettings} {t : Target} (h : s.target = .ok t) :
    t.name ≠ [] ∧ t.displayName ≠ [] ∧ 0 < t.revision := by
  unfold target at h
  split at h
  · cases h
  · rename_i hname
    have hname : s.name ≠ [] := by simpa using hname
    split at h
    · cases h
    · cases h
    · rename_i revision hzero _
      split at h
      · cases h
      · cases h
        refine ⟨hname, ?_, Nat.pos_of_ne_zero fun h => hzero (h ▸ rfl)⟩
        dsimp only
        split
        · exact hname
        · rename_i hdisplay
          simpa using hdisplay

end TargetSettings

namespace Target

/-- The lines of a target file. -/
def linesOf (content : Text) : List TargetLine :=
  (List.splitOn '\n' content).map TargetLine.ofText

/-- The values that a target file assigns to a setting, in their order. -/
def valuesOf (content : Text) (setting : Setting) : List Text :=
  TargetLine.values [] (linesOf content) setting

/-- A file is accepted exactly if its lines are, and the last values of its settings are those of a
target. -/
theorem parse_eq_ok_iff {content : Text} {t : Target} :
    parse content = .ok t ↔
      (∀ line, .unreadable line ∉ linesOf content) ∧
      (∀ value ∈ valuesOf content .revision, TargetSettings.readRevision? value ≠ none) ∧
      (TargetSettings.withValues {} (valuesOf content)).target = .ok t := by
  rw [parse, Except.bind_eq_ok_iff]
  simp only [TargetSettings.readLines_eq_ok_iff]
  constructor
  · rintro ⟨_, ⟨hlines, hrevisions, rfl⟩, htarget⟩
    exact ⟨hlines, hrevisions, htarget⟩
  · rintro ⟨hlines, hrevisions, htarget⟩
    exact ⟨_, ⟨hlines, hrevisions, rfl⟩, htarget⟩

end Target

end ShaderBackend
