import ShaderBackend.CommandLine.Build
import ShaderBackend.Files.Store
import ShaderBackend.Proofs.Module.RoundTrip

/-!
Files that are written and read again. A write changes what is at one location, where no directory
was, so that every path leads where it led before. What was written is read back, and what is read
from elsewhere stays as it was. So a module that was written to a file is read from it.
-/

namespace ShaderBackend

namespace Files

variable {f f' : Files} {l here there : Location} {bytes contents : Bytes} {path : Text}

/-! ### What is at a location -/

theorem lookup_replace (entries : List (Location × Bytes)) (l : Location) (bytes : Bytes)
    (there : Location) :
    (entries.map fun e => if e.1 == l then (l, bytes) else e).lookup there =
      if there = l then (entries.lookup l).map fun _ => bytes else entries.lookup there := by
  induction entries with
  | nil => simp
  | cons e entries ih =>
      obtain ⟨place, old⟩ := e
      by_cases hplace : place = l
      · subst hplace
        by_cases hthere : there = place
        · simp [hthere]
        · simpa [List.lookup_cons, hthere, beq_false_of_ne hthere] using ih
      · by_cases hthere : there = place
        · subst hthere
          simp [hplace]
        · simpa [List.lookup_cons, hplace, beq_false_of_ne hthere,
            beq_false_of_ne (Ne.symm hplace)] using ih

theorem lookup_put (f : Files) (l : Location) (bytes : Bytes) (there : Location) :
    (f.put l bytes).entries.lookup there =
      if there = l then some bytes else f.entries.lookup there := by
  unfold put
  split
  · rename_i hany
    obtain ⟨e, he, hl⟩ := List.any_eq_true.mp hany
    have hsome : (f.entries.lookup l).isSome = true :=
      List.lookup_isSome_iff.mpr ⟨e, he, beq_iff_eq.mpr (beq_iff_eq.mp hl).symm⟩
    obtain ⟨old, hold⟩ := Option.isSome_iff_exists.mp hsome
    rw [lookup_replace, hold]
    rfl
  · rename_i hnone
    have hlookup : f.entries.lookup l = none := by
      rw [List.lookup_eq_none_iff]
      intro e he
      have hne := mt List.any_eq_true.mpr hnone
      simp only [not_exists, not_and, beq_iff_eq] at hne
      simpa using Ne.symm (hne e he)
    rw [List.lookup_append]
    by_cases hthere : there = l
    · subst hthere
      simp [hlookup]
    · simp [List.lookup_cons, hthere, beq_false_of_ne hthere]

theorem any_isWithin_put (f : Files) (l : Location) (bytes : Bytes)
    (h : f.entries.any (·.1.isWithin here) = true) :
    (f.put l bytes).entries.any (·.1.isWithin here) = true := by
  unfold put
  split
  · rw [List.any_map]
    refine List.any_eq_true.mpr ?_
    obtain ⟨e, he, hwithin⟩ := List.any_eq_true.mp h
    refine ⟨e, he, ?_⟩
    by_cases hl : e.1 = l
    · simpa [hl] using hl ▸ hwithin
    · simpa [hl] using hwithin
  · rw [List.any_append, h, Bool.true_or]

theorem entry_put_self (h : devices.lookup l.names = none) :
    (f.put l bytes).entry l = .file bytes := by
  rw [entry, h]
  simp only [lookup_put, if_true]

/-- Elsewhere all is as it was, but that a directory may be where nothing was. -/
theorem entry_put_of_ne (f : Files) (bytes : Bytes) (hne : there ≠ l) :
    (f.put l bytes).entry there = f.entry there ∨ f.entry there = .absent := by
  have hdirectories : (f.put l bytes).directories = f.directories := by
    unfold put
    split <;> rfl
  unfold entry
  rw [lookup_put, if_neg hne, hdirectories]
  split
  · exact .inl rfl
  · split
    · exact .inl rfl
    · split
      · exact .inl rfl
      · split
        · split
          · exact .inl rfl
          · exact .inr rfl
        · rename_i hnone
          refine .inr (if_neg fun hdirectory => hnone ?_)
          simp only [Bool.or_eq_true] at hdirectory ⊢
          exact hdirectory.imp_right (any_isWithin_put f l bytes)

theorem entry_put_of_directory (hl : f.entry l ≠ .directory) (h : f.entry here = .directory) :
    (f.put l bytes).entry here = .directory := by
  have hne : here ≠ l := by
    rintro rfl
    exact hl h
  rcases entry_put_of_ne f bytes hne with hsame | habsent
  · rw [hsame, h]
  · rw [h] at habsent
    cases habsent

/-! ### Where a path leads -/

/-- Every path leads where it led, since it goes through directories only. -/
theorem follow_put (hl : f.entry l ≠ .directory) {names : List Text}
    (h : f.follow here names = .ok there) : (f.put l bytes).follow here names = .ok there := by
  induction names generalizing here with
  | nil => exact h
  | cons name rest ih =>
      cases hentry : f.entry here with
      | directory =>
        simp only [follow, hentry] at h
        simp only [follow, entry_put_of_directory hl hentry]
        split at h
        · rename_i hdot
          rw [if_pos hdot]
          exact ih h
        · rename_i hdot
          rw [if_neg hdot]
          split at h
          · rename_i hup
            rw [if_pos hup]
            exact ih h
          · rename_i hup
            rw [if_neg hup]
            split at h
            · cases h
            · rename_i hlength
              rw [if_neg hlength]
              exact ih h
      | _ => simp [follow, hentry] at h

theorem locate_put (hl : f.entry l ≠ .directory) (h : f.locate path = .ok there) :
    (f.put l bytes).locate path = .ok there := by
  unfold locate at h ⊢
  split at h
  · cases h
  · rename_i hnul
    rw [if_neg hnul]
    split at h
    · cases h
    · rename_i hlength
      rw [if_neg hlength]
      split at h
      · cases h
      · exact follow_put hl h
      · exact follow_put hl h

theorem withoutSlashes_of_unmarked (h : (withoutSlashes path).2 = false) :
    (withoutSlashes path).1 = path := by
  unfold withoutSlashes at h ⊢
  dsimp only at h ⊢
  split
  · rfl
  · rename_i hsome
    rw [if_neg hsome] at h
    have hsuffix := List.dropWhile_suffix (· == '/') (l := path.reverse)
    have hlength : path.reverse.length ≤ (path.reverse.dropWhile (· == '/')).length := by
      simpa using h
    simp [hsuffix.eq_of_length_le hlength]

theorem locateNew_eq_ok (h : f.locateNew path = .ok l) :
    f.locate path = .ok l ∧ f.entry l ≠ .directory := by
  unfold locateNew at h
  simp only [Except.bind_eq_ok_iff] at h
  obtain ⟨place, hplace, h⟩ := h
  split at h
  · cases h
  · rename_i hdirectory
    split at h
    · cases h
    · rename_i hunmarked
      cases h
      rw [withoutSlashes_of_unmarked (Bool.eq_false_iff.mpr hunmarked)] at hplace
      exact ⟨hplace, hdirectory⟩

/-! ### Writing and reading -/

theorem lookup_devices_eq_none (h : ∀ d, f.entry l ≠ .device d) :
    devices.lookup l.names = none := by
  unfold entry at h
  cases hdevice : devices.lookup l.names with
  | none => rfl
  | some d => simp [hdevice] at h

/-- A path that can be written to leads to no directory. Where it leads to a device all files stay
as they are. -/
theorem write_eq_ok (h : f.write path bytes = .ok f') :
    ∃ l, f.locate path = .ok l ∧ f.entry l ≠ .directory ∧
      ((∃ d, f.entry l = .device d) ∧ f' = f ∨
        (∀ d, f.entry l ≠ .device d) ∧ f' = f.put l bytes) := by
  unfold write at h
  simp only [Except.bind_eq_ok_iff] at h
  obtain ⟨l, hl, h⟩ := h
  obtain ⟨hlocate, hdirectory⟩ := locateNew_eq_ok hl
  refine ⟨l, hlocate, hdirectory, ?_⟩
  cases hentry : f.entry l with
  | device d =>
    left
    refine ⟨⟨d, rfl⟩, ?_⟩
    cases d with
    | terminal => simp [hentry] at h
    | full =>
      simp only [hentry] at h
      split at h <;> cases h
      rfl
    | _ =>
      simp only [hentry] at h
      cases h
      rfl
  | absent =>
    right
    refine ⟨nofun, ?_⟩
    simp only [hentry] at h
    split at h <;> cases h
    rfl
  | _ =>
    right
    refine ⟨nofun, ?_⟩
    simp only [hentry] at h
    cases h
    rfl

/-- What was written to a path is read from it, unless it leads to a device. -/
theorem read_of_write (h : f.write path bytes = .ok f') (hlocate : f.locate path = .ok l)
    (hplain : ∀ d, f.entry l ≠ .device d) : f'.read path = .ok bytes := by
  obtain ⟨place, hplace, hdirectory, hcases⟩ := write_eq_ok h
  obtain rfl : l = place := Except.ok.inj (hlocate.symm.trans hplace)
  rcases hcases with ⟨⟨d, hd⟩, -⟩ | ⟨hnone, rfl⟩
  · exact absurd hd (hplain d)
  · unfold read
    rw [locate_put hdirectory hlocate, Except.ok_bind,
      entry_put_self (lookup_devices_eq_none hnone)]
    rfl

/-- What is read from a path that leads elsewhere stays as it was. -/
theorem read_of_write_elsewhere {path' : Text} (h : f.write path bytes = .ok f')
    (hne : f.locate path' ≠ f.locate path) (hread : f.read path' = .ok contents) :
    f'.read path' = .ok contents := by
  obtain ⟨l, hlocate, hdirectory, hcases⟩ := write_eq_ok h
  rcases hcases with ⟨-, rfl⟩ | ⟨-, rfl⟩
  · exact hread
  · unfold read at hread ⊢
    rw [Except.bind_eq_ok_iff] at hread ⊢
    obtain ⟨there, hthere, hread⟩ := hread
    refine ⟨there, locate_put hdirectory hthere, ?_⟩
    have hplace : there ≠ l := by
      rintro rfl
      exact hne (hthere.trans hlocate.symm)
    rcases entry_put_of_ne f bytes hplace with hsame | habsent
    · rw [hsame]
      exact hread
    · rw [habsent] at hread
      cases hread

/-- A change that cannot take place leaves the files as they are. -/
theorem run_update (change : Files → Except FileFault Files) (f : Files) :
    (update change).run f =
      match change f with
      | .ok changed => (.ok (), changed)
      | .error fault => (.error fault, f) := by
  simp only [update, StateT.run_bind, StateT.run_get, pure_bind]
  cases change f <;> rfl

end Files

/-- A module that was written to a file is read from it, and all other files are read as before. -/
theorem Module.read_written {m : Module} (hm : m.Valid) {path : Text} {f f' : Files} {l : Location}
    (hlocate : f.locate path = .ok l) (hplain : ∀ d, f.entry l ≠ .device d)
    (h : (m.write path : StateM Files (Except Diagnostic Unit)).run f = (.ok (), f')) :
    (∃ bytes, f'.read path = .ok bytes ∧ ofBytes bytes = .ok m) ∧
    ∀ path' contents, f.locate path' ≠ f.locate path → f.read path' = .ok contents →
      f'.read path' = .ok contents := by
  have hwrite : f.write path m.toBytes = .ok f' := by
    simp only [Module.write, writeFile, StateT.run_bind, Files.run_update] at h
    cases hchange : f.write path m.toBytes with
    | ok changed =>
      rw [hchange] at h
      cases h
      rfl
    | error fault =>
      rw [hchange] at h
      cases h
  refine ⟨⟨m.toBytes, Files.read_of_write hwrite hlocate hplain, ?_⟩,
    fun path' contents => Files.read_of_write_elsewhere hwrite⟩
  simpa using ofBytes_toBytes_append hm []

end ShaderBackend
