import ShaderBackend.Compile.Basic
import ShaderBackend.Proofs.Program.Placement
import ShaderBackend.Proofs.Program.Printed
import ShaderBackend.Proofs.Varying.Assignment

/-!
The text of a request says all that a generator is asked for. The lines in front of the tokens are
told from each other by their first words and end at the first line without a blank; each line of a
varying is cut into its fields at the blanks. Two roles share a name, and are told apart by the
stage and the direction of the varying.
-/

namespace ShaderBackend

theorem Stage.mnemonic_inj {s s' : Stage} : s.mnemonic = s'.mnemonic ↔ s = s' := by
  have hread : ∀ s : Stage, ofMnemonic? s.mnemonic = some s := by
    intro s
    cases s <;> decide
  refine ⟨fun h => ?_, congrArg mnemonic⟩
  have hstage := congrArg ofMnemonic? h
  simpa only [hread, Option.some.injEq] using hstage

/-! ### Varyings as text -/

namespace Slots

/-- One slot as it is printed. -/
def slotText (digits : Nat) : Option UInt32 → Text
  | some slot => Text.hexadecimal digits slot.toNat
  | none => "-"

theorem render_eq (digits : Nat) (s : Slots) :
    s.render digits =
      slotText digits s.x ++ ',' :: (slotText digits s.y ++
        ',' :: (slotText digits s.z ++ ',' :: slotText digits s.w)) := by
  simp only [render, toList, List.map_cons, List.map_nil, List.intercalate_cons_cons,
    List.intercalate_singleton, List.append_assoc]
  rfl

theorem not_mem_slotText {c : Char} (hx : c ≠ 'x') (hdash : c ≠ '-')
    (hc : Text.digitValue? c = none) (digits : Nat) (slot : Option UInt32) :
    c ∉ slotText digits slot := by
  cases slot with
  | none => simp [slotText, hdash]
  | some slot => exact Text.not_mem_hexadecimal hx hc digits slot.toNat

theorem slotText_inj {digits : Nat} {slot slot' : Option UInt32} :
    slotText digits slot = slotText digits slot' ↔ slot = slot' := by
  have hdash : ∀ n, Text.hexadecimal digits n ≠ "-".toList := by
    intro n h
    exact absurd (List.cons.inj h).1 (by decide)
  refine ⟨fun h => ?_, congrArg (slotText digits)⟩
  cases slot with
  | none =>
      cases slot' with
      | none => rfl
      | some n => exact absurd h.symm (hdash n.toNat)
  | some m =>
      cases slot' with
      | none => exact absurd h (hdash m.toNat)
      | some n => rw [UInt32.toNat_inj.mp (Text.hexadecimal_inj.mp h)]

theorem render_inj {digits : Nat} {s s' : Slots} : s.render digits = s'.render digits ↔ s = s' := by
  have hcomma : ∀ slot, ',' ∉ slotText digits slot :=
    not_mem_slotText (by decide) (by decide) (by decide) digits
  refine ⟨fun h => ?_, congrArg (render digits)⟩
  rw [render_eq, render_eq] at h
  obtain ⟨hx, h⟩ := Text.eq_of_append_cons_eq (hcomma _) (hcomma _) h
  obtain ⟨hy, h⟩ := Text.eq_of_append_cons_eq (hcomma _) (hcomma _) h
  obtain ⟨hz, hw⟩ := Text.eq_of_append_cons_eq (hcomma _) (hcomma _) h
  rw [slotText_inj] at hx hy hz hw
  obtain ⟨x, y, z, w⟩ := s
  obtain ⟨x', y', z', w'⟩ := s'
  subst hx hy hz hw
  rfl

end Slots

theorem Semantic.not_mem_name {c : Char} (hc : isUpperOrUnderscore c = false) (s : Semantic) :
    c ∉ s.name := by
  have hall : s.name.all isUpperOrUnderscore = true := by cases s <;> decide
  intro hmem
  exact Text.ne_of_class (List.all_eq_true.mp hall c hmem) hc rfl

/-- The one of the two roles with the same name that a varying of a program never has. -/
def Semantic.absent (stage : Stage) (file : RegisterFile) : Semantic :=
  if stage = .fragment ∧ file = .output then .position else .fragDepth

theorem Semantic.eq_of_name_eq {s s' : Semantic} {stage : Stage} {file : RegisterFile}
    (hs : s ≠ absent stage file) (hs' : s' ≠ absent stage file) (h : s.name = s'.name) :
    s = s' := by
  have hread := congrArg ofName? h
  rw [ofName?_name, ofName?_name, Option.some.injEq] at hread
  unfold absent at hs hs'
  grind

namespace Request

theorem varyingLine_eq (direction : Text) (number : Nat) (v : Varying) :
    varyingLine direction number v =
      direction ++ ' ' :: (Text.decimal number ++ ' ' :: (v.semantic.name ++
        ' ' :: (Text.decimal v.index ++ ' ' :: ("mask=" ++ Text.hexadecimal 1 v.mask.toNat ++
          ' ' :: ("slots=" ++ v.slots.render 1))))) := by
  simp only [varyingLine, List.append_assoc]
  rfl

/-- Lines of one varying each agree only if the varyings do, up to the name of the role. -/
theorem eq_of_varyingLine_eq {direction : Text} {number : Nat} {v v' : Varying}
    (h : varyingLine direction number v = varyingLine direction number v') :
    v.semantic.name = v'.semantic.name ∧ v.index = v'.index ∧ v.mask = v'.mask ∧
      v.slots = v'.slots := by
  have hname := Semantic.not_mem_name (c := ' ') (by decide)
  have hindex : ∀ n, ' ' ∉ Text.decimal n := fun n => Excerpt.not_mem_decimal (by decide)
  have hmask : ∀ n, ' ' ∉ "mask=" ++ Text.hexadecimal 1 n := by
    intro n
    simp [Text.not_mem_hexadecimal (c := ' ') (by decide) (by decide)]
  rw [varyingLine_eq, varyingLine_eq] at h
  replace h := (List.cons.inj (List.append_cancel_left h)).2
  replace h := (List.cons.inj (List.append_cancel_left h)).2
  obtain ⟨hsemantic, h⟩ := Text.eq_of_append_cons_eq (hname _) (hname _) h
  obtain ⟨hv, h⟩ := Text.eq_of_append_cons_eq (hindex _) (hindex _) h
  obtain ⟨hm, h⟩ := Text.eq_of_append_cons_eq (hmask _) (hmask _) h
  exact ⟨hsemantic, Text.decimal_inj.mp hv,
    UInt8.toNat_inj.mp (Text.hexadecimal_inj.mp (List.append_cancel_left hm)),
    Slots.render_inj.mp (List.append_cancel_left h)⟩

/-- An entry is one line with a blank in it; the marker in front of the tokens is none. -/
def IsEntry (line : Text) : Prop :=
  '\n' ∉ line ∧ ' ' ∈ line

instance (line : Text) : Decidable (IsEntry line) :=
  inferInstanceAs (Decidable (_ ∧ _))

theorem IsEntry.append {s t : Text} (hs : IsEntry s) (ht : '\n' ∉ t) : IsEntry (s ++ t) :=
  ⟨by simp [hs.1, ht], by simp [hs.2]⟩

theorem newline_not_mem_decimal (n : Nat) : '\n' ∉ Text.decimal n :=
  Excerpt.not_mem_decimal (by decide)

theorem newline_not_mem_hexadecimal (digits n : Nat) : '\n' ∉ Text.hexadecimal digits n :=
  Text.not_mem_hexadecimal (by decide) (by decide) digits n

theorem isEntry_varyingLine {direction : Text} (hdirection : '\n' ∉ direction) (number : Nat)
    (v : Varying) : IsEntry (varyingLine direction number v) := by
  have hname := Semantic.not_mem_name (c := '\n') (by decide)
  have hslot := Slots.not_mem_slotText (c := '\n') (by decide) (by decide) (by decide)
  rw [varyingLine_eq, Slots.render_eq]
  constructor
  · simp [hdirection, hname, newline_not_mem_decimal, newline_not_mem_hexadecimal, hslot]
  · simp

/-- The lines of a request that stand in front of its varyings. -/
def fixedLines (r : Request) : List Text :=
  ["stage " ++ r.interface.stage.mnemonic,
    "target " ++ Text.hexadecimal 1 r.interface.target,
    "opt " ++ Text.decimal r.optLevel,
    "smem " ++ Text.decimal r.program.sharedMemory,
    basesLine r.bases]

theorem isEntry_fixedLines (r : Request) : ∀ line ∈ r.fixedLines, IsEntry line := by
  have hmnemonic : '\n' ∉ r.interface.stage.mnemonic := by cases r.interface.stage <;> decide
  have hfield : ∀ {s key : Text} {digits n : Nat}, IsEntry s → '\n' ∉ key →
      IsEntry (s ++ key ++ Text.hexadecimal digits n) :=
    fun hs hkey => (hs.append hkey).append (newline_not_mem_hexadecimal _ _)
  have hbases : ∀ b, IsEntry (basesLine b) := by
    intro b
    unfold basesLine
    iterate 6 refine hfield ?_ (by decide)
    exact .append (by decide) (newline_not_mem_decimal _)
  simp only [fixedLines, List.forall_mem_cons]
  exact ⟨.append (by decide) hmnemonic, .append (by decide) (newline_not_mem_hexadecimal 1 _),
    .append (by decide) (newline_not_mem_decimal _),
    .append (by decide) (newline_not_mem_decimal _), hbases _, by simp⟩

/-- The lines of a request in front of the marker. -/
def entries (r : Request) : List Text :=
  r.fixedLines ++ r.interface.inputs.mapIdx (varyingLine "in") ++
    r.interface.outputs.mapIdx (varyingLine "out")

theorem render_eq (r : Request) :
    r.render = Text.unlines (r.entries ++ ["tokens".toList]) ++ r.program.render := rfl

theorem isEntry_of_mem_entries {r : Request} {line : Text} (h : line ∈ r.entries) :
    IsEntry line := by
  simp only [entries, List.mem_append, List.mem_mapIdx] at h
  rcases h with (h | ⟨number, hlt, rfl⟩) | ⟨number, hlt, rfl⟩
  · exact isEntry_fixedLines r line h
  · exact isEntry_varyingLine (by decide) number _
  · exact isEntry_varyingLine (by decide) number _

theorem eq_of_render_eq {r r' : Request} (h : r.render = r'.render) :
    r.entries = r'.entries ∧ r.program.render = r'.program.render := by
  have hmarker : ∀ {line : Text}, IsEntry line → line ≠ "tokens".toList := by
    rintro line ⟨-, hblank⟩ rfl
    exact absurd hblank (by decide)
  rw [render_eq, render_eq] at h
  exact Text.eq_of_unlines_append_eq (by decide)
    (fun line hline => ⟨(isEntry_of_mem_entries hline).1, hmarker (isEntry_of_mem_entries hline)⟩)
    (fun line hline => ⟨(isEntry_of_mem_entries hline).1, hmarker (isEntry_of_mem_entries hline)⟩) h

/-- The lines of the inputs end where those of the outputs begin. -/
theorem eq_of_varyingLines_eq {inputs inputs' outputs outputs' : List Varying}
    (h : inputs.mapIdx (varyingLine "in") ++ outputs.mapIdx (varyingLine "out") =
      inputs'.mapIdx (varyingLine "in") ++ outputs'.mapIdx (varyingLine "out")) :
    inputs.mapIdx (varyingLine "in") = inputs'.mapIdx (varyingLine "in") ∧
      outputs.mapIdx (varyingLine "out") = outputs'.mapIdx (varyingLine "out") := by
  -- The two words for the direction have different first letters.
  have hin : ∀ vs : List Varying, (vs.mapIdx (varyingLine "in")).filter (·.head? == some 'i') =
      vs.mapIdx (varyingLine "in") := by
    intro vs
    rw [List.filter_eq_self]
    intro line hline
    obtain ⟨number, hlt, rfl⟩ := List.mem_mapIdx.mp hline
    rfl
  have hout : ∀ vs : List Varying,
      (vs.mapIdx (varyingLine "out")).filter (·.head? == some 'i') = [] := by
    intro vs
    rw [List.filter_eq_nil_iff]
    intro line hline
    obtain ⟨number, hlt, rfl⟩ := List.mem_mapIdx.mp hline
    exact Bool.false_ne_true
  have hinputs := congrArg (List.filter (·.head? == some 'i')) h
  simp only [List.filter_append, hin, hout, List.append_nil] at hinputs
  rw [hinputs] at h
  exact ⟨hinputs, List.append_cancel_left h⟩

theorem eq_of_entries_eq {r r' : Request} (h : r.entries = r'.entries) :
    r.interface.stage = r'.interface.stage ∧ r.interface.target = r'.interface.target ∧
      r.optLevel = r'.optLevel ∧ r.program.sharedMemory = r'.program.sharedMemory ∧
      r.interface.inputs.mapIdx (varyingLine "in") =
        r'.interface.inputs.mapIdx (varyingLine "in") ∧
      r.interface.outputs.mapIdx (varyingLine "out") =
        r'.interface.outputs.mapIdx (varyingLine "out") := by
  rw [entries, entries, List.append_assoc, List.append_assoc] at h
  have hlength : r.fixedLines.length = r'.fixedLines.length := by
    simp only [fixedLines, List.length_cons]
  obtain ⟨hfixed, hvaryings⟩ := List.append_inj h hlength
  simp only [fixedLines, List.cons.injEq, List.append_cancel_left_eq] at hfixed
  obtain ⟨hstage, htarget, hopt, hshared, -⟩ := hfixed
  exact ⟨Stage.mnemonic_inj.mp hstage, Text.hexadecimal_inj.mp htarget, Text.decimal_inj.mp hopt,
    Text.decimal_inj.mp hshared, eq_of_varyingLines_eq hvaryings⟩

end Request

/-! ### Varyings of a program -/

/-- A role that was read is not the depth, which has no name of its own. -/
theorem Declaration.base_ne_fragDepth {d : Declaration} (h : d.WellFormed) :
    d.base.1 ≠ .fragDepth := by
  unfold base
  split
  · rename_i s index hb
    rintro rfl
    have hname := (h.binding _ (by rw [hb]; rfl)).2.ofName
    cases hname
  · intro hgeneric
    cases hgeneric

theorem Program.semantic_ne_absent {p : Program} (hp : p.WellFormed) {file : RegisterFile}
    {v : Varying} (hv : v ∈ p.varyings file) : v.semantic ≠ .absent p.stage file := by
  obtain ⟨d, hd, rfl, hmem⟩ := mem_varyings.mp hv
  obtain ⟨k, -, rfl⟩ := List.mem_map.mp hmem
  have hbase := d.base_ne_fragDepth (hp.declarations d hd)
  change d.role p.stage ≠ _
  unfold Declaration.role Semantic.absent
  grind

/-- The varyings of programs of one stage are told apart by their lines. -/
theorem Request.varyings_eq_of_lines_eq {p p' : Program} (hp : p.WellFormed) (hp' : p'.WellFormed)
    (hstage : p.stage = p'.stage) {file : RegisterFile} {vs vs' : List Varying}
    (hvs : vs.map Varying.key = (p.varyings file).map Varying.key)
    (hvs' : vs'.map Varying.key = (p'.varyings file).map Varying.key) {direction : Text}
    (h : vs.mapIdx (varyingLine direction) = vs'.mapIdx (varyingLine direction)) : vs = vs' := by
  -- Slots do not change a role, so what holds of the program's varyings holds of the assigned ones.
  have habsent : ∀ {p : Program} {vs : List Varying}, p.WellFormed →
      vs.map Varying.key = (p.varyings file).map Varying.key →
      ∀ v ∈ vs, v.semantic ≠ .absent p.stage file := by
    intro p vs hp hvs v hv
    have hkey : v.key ∈ (p.varyings file).map Varying.key := by
      rw [← hvs]
      exact List.mem_map_of_mem hv
    obtain ⟨w, hw, hkeys⟩ := List.mem_map.mp hkey
    have hsemantic : w.semantic = v.semantic := congrArg Prod.fst hkeys
    rw [← hsemantic]
    exact p.semantic_ne_absent hp hw
  have hlength : vs.length = vs'.length := by simpa using congrArg List.length h
  refine List.ext_getElem hlength fun n hn hn' => ?_
  have hline : varyingLine direction n vs[n] = varyingLine direction n vs'[n] := by
    simpa [hn, hn'] using congrArg (·[n]?) h
  obtain ⟨hname, hindex, hmask, hslots⟩ := eq_of_varyingLine_eq hline
  have hsemantic : vs[n].semantic = vs'[n].semantic :=
    Semantic.eq_of_name_eq (habsent hp hvs _ (List.getElem_mem hn))
      (hstage ▸ habsent hp' hvs' _ (List.getElem_mem hn')) hname
  cases hv : vs[n]
  cases hv' : vs'[n]
  simp only [hv, hv'] at hsemantic hindex hmask hslots
  subst hsemantic hindex hmask hslots
  rfl

theorem Program.request_eq_ok {p : Program} {options : CompileOptions} {i : Interface}
    (h : (p.interface options.target).assignSlots = .ok i) :
    p.request options = .ok ⟨i, p, options.optLevel⟩ := by
  rw [request, h]
  rfl

/-- Two accepted programs have the same request exactly when they agree in all that a generator is
asked for: the stage, the options, the shared memory, the varyings with their slots and the
tokens. -/
theorem FrontEnd.request_unambiguous (f f' : FrontEnd) (source source' : Text)
    (stage stage' : Stage) (p p' : Program) (h : (f.compile source stage).1 = .ok p)
    (h' : (f'.compile source' stage').1 = .ok p') (options options' : CompileOptions) :
    ∃ r r', p.request options = .ok r ∧ p'.request options' = .ok r' ∧
      (r.render = r'.render ↔
        p.stage = p'.stage ∧ options.target = options'.target ∧
        options.optLevel = options'.optLevel ∧ p.sharedMemory = p'.sharedMemory ∧
        r.interface.inputs = r'.interface.inputs ∧ r.interface.outputs = r'.interface.outputs ∧
        p.render = p'.render) := by
  rw [compile_fst, Program.ofSource_eq_ok] at h h'
  have hp := Program.parse_wellFormed h.1
  have hp' := Program.parse_wellFormed h'.1
  obtain ⟨i, hi⟩ := Program.assignSlots_of_errors_eq_nil hp h.2 options.target
  obtain ⟨i', hi'⟩ := Program.assignSlots_of_errors_eq_nil hp' h'.2 options'.target
  obtain ⟨hstage, htarget, hinputs, houtputs⟩ := Interface.map_key_of_assignSlots hi
  obtain ⟨hstage', htarget', hinputs', houtputs'⟩ := Interface.map_key_of_assignSlots hi'
  refine ⟨_, _, Program.request_eq_ok hi, Program.request_eq_ok hi', fun hrender => ?_, ?_⟩
  · obtain ⟨hentries, htokens⟩ := Request.eq_of_render_eq hrender
    obtain ⟨hs, ht, hopt, hshared, hin, hout⟩ := Request.eq_of_entries_eq hentries
    have hstages : p.stage = p'.stage := hstage.symm.trans (hs.trans hstage')
    exact ⟨hstages, htarget.symm.trans (ht.trans htarget'), hopt, hshared,
      Request.varyings_eq_of_lines_eq hp hp' hstages hinputs hinputs' hin,
      Request.varyings_eq_of_lines_eq hp hp' hstages houtputs houtputs' hout, htokens⟩
  · rintro ⟨hs, ht, hopt, hshared, hin, hout, htokens⟩
    dsimp only at hin hout
    have hstages : i.stage = i'.stage := hstage.trans (hs.trans hstage'.symm)
    have htargets : i.target = i'.target := htarget.trans (ht.trans htarget'.symm)
    simp only [Request.render, Request.headLines, Request.bases, hstages, htargets, hopt, hshared,
      hin, hout, hs, htokens]

/-- A fragment program that writes its depth, with the spans of its declaration and of its
instruction. -/
def writesDepth (declared ended : Span) : Program where
  stage := .fragment
  declarations := [{
    file := .output, first := 0, last := 0, binding := some (.role .position 0)
    span := declared }]
  instructions := [{ opcode := "END".toList, operands := [], span := ended }]

/-- Two spellings of one program have the same request, and another one at another level. -/
theorem FrontEnd.request_unambiguous_writesDepth :
    (FrontEnd.compile {} "FRAG\nDCL OUT[0], POSITION\n0: END" .fragment).1 =
      .ok (writesDepth ⟨5, 25⟩ ⟨26, 32⟩) ∧
    (FrontEnd.compile {} "FRAG ; z\nDCL OUT[0], POSITION\nEND" .fragment).1 =
      .ok (writesDepth ⟨9, 29⟩ ⟨30, 33⟩) ∧
    (∃ r r', (writesDepth ⟨5, 25⟩ ⟨26, 32⟩).request {} = .ok r ∧
      (writesDepth ⟨9, 29⟩ ⟨30, 33⟩).request {} = .ok r' ∧ r.render = r'.render ∧
      r.interface.outputs.map (·.semantic) = [.fragDepth]) ∧
    ∃ r r', (writesDepth ⟨5, 25⟩ ⟨26, 32⟩).request {} = .ok r ∧
      (writesDepth ⟨9, 29⟩ ⟨30, 33⟩).request { optLevel := 2 } = .ok r' ∧
      r.render ≠ r'.render := by
  have h : (FrontEnd.compile {} "FRAG\nDCL OUT[0], POSITION\n0: END" .fragment).1 =
      .ok (writesDepth ⟨5, 25⟩ ⟨26, 32⟩) := by decide +kernel
  have h' : (FrontEnd.compile {} "FRAG ; z\nDCL OUT[0], POSITION\nEND" .fragment).1 =
      .ok (writesDepth ⟨9, 29⟩ ⟨30, 33⟩) := by decide +kernel
  obtain ⟨r, r', hr, hr', hsame⟩ := FrontEnd.request_unambiguous _ _ _ _ _ _ _ _ h h' {} {}
  obtain ⟨s, s', hs, hs', hlevels⟩ :=
    FrontEnd.request_unambiguous _ _ _ _ _ _ _ _ h h' {} { optLevel := 2 }
  refine ⟨h, h', ⟨r, r', hr, hr', hsame.mpr ?_, ?_⟩, s, s', hs, hs', fun hrender => ?_⟩
  · cases hr
    cases hr'
    exact ⟨rfl, rfl, rfl, rfl, rfl, rfl, rfl⟩
  · cases hr
    rfl
  · exact absurd (hlevels.mp hrender).2.2.1 (by decide)

end ShaderBackend
