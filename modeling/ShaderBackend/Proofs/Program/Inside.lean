import ShaderBackend.Program.Parser
import ShaderBackend.Proofs.Text.Place

/-!
Reading inside an excerpt. A reader could give back a value and problems, or neither. `e.Reads x Q`
says that `x` is one value, which satisfies `Q`, and no problem, or else one problem, about a piece
of `e`, and no value. Each reader has one such statement. They compose along the reader: a step that
reads a piece of the excerpt reads inside the excerpt, and a step is only taken where the one before
it gave a value and reported nothing. In the end a token has the span of its line, and a problem
lies inside the line.
-/

namespace ShaderBackend

namespace Reading

variable {α β : Type}

theorem eq_ok_iff {x : Reading α} {a : α} : x = .ok a ↔ x.value = some a ∧ x.problems = [] := by
  obtain ⟨value, problems⟩ := x
  simp

theorem bind_eq_ok_iff {x : Reading α} {f : α → Reading β} {b : β} :
    x >>= f = .ok b ↔ ∃ a, x = .ok a ∧ f a = .ok b := by
  obtain ⟨value, problems⟩ := x
  cases value with
  | none => simp [bind, Reading.bind]
  | some a =>
      simp only [bind, Reading.bind, eq_ok_iff, List.append_eq_nil_iff, Option.some.injEq]
      constructor
      · rintro ⟨hvalue, rfl, hproblems⟩
        exact ⟨a, ⟨rfl, rfl⟩, hvalue, hproblems⟩
      · rintro ⟨_, ⟨rfl, rfl⟩, hvalue, hproblems⟩
        exact ⟨hvalue, rfl, hproblems⟩

theorem map_eq_ok_iff {x : Reading α} {f : α → β} {b : β} :
    x.map f = .ok b ↔ ∃ a, x = .ok a ∧ f a = b := by
  obtain ⟨value, problems⟩ := x
  cases value with
  | none => simp [Reading.map]
  | some a => simp [Reading.map, and_comm]

@[simp] theorem ok_bind (a : α) (f : α → Reading β) : (.ok a : Reading α) >>= f = f a := rfl

/-- One value and no problem, or one problem and no value. -/
def Exact (x : Reading α) : Prop :=
  (∃ a, x = .ok a) ∨ ∃ p, x = ⟨none, [p]⟩

end Reading

namespace Excerpt

inductive Reads {α : Type} (e : Excerpt) : Reading α → (α → Prop) → Prop
  | ok {a : α} {Q : α → Prop} (h : Q a) : Reads e (.ok a) Q
  | fail {piece : Excerpt} {Q : α → Prop} (h : piece.PieceOf e) (fault : Fault) :
      Reads e (piece.fail fault) Q

namespace Reads

variable {α β : Type} {e : Excerpt} {x : Reading α} {Q : α → Prop}

theorem value {a : α} (hx : e.Reads x Q) (h : x = .ok a) : Q a := by
  cases hx with
  | ok ha =>
      cases h
      exact ha
  | fail _ _ => cases h

theorem problem {p : Problem} (hx : e.Reads x Q) (h : p ∈ x.problems) :
    ∃ piece : Excerpt, piece.PieceOf e ∧ p.span = piece.span := by
  cases hx with
  | ok _ => cases h
  | fail hpiece fault =>
      rw [List.mem_singleton.mp h]
      exact ⟨_, hpiece, rfl⟩

theorem exact (hx : e.Reads x Q) : x.Exact := by
  cases hx with
  | ok _ => exact .inl ⟨_, rfl⟩
  | fail _ _ => exact .inr ⟨_, rfl⟩

theorem bind {f : α → Reading β} {R : β → Prop} (hx : e.Reads x Q)
    (hf : ∀ a, Q a → e.Reads (f a) R) : e.Reads (x >>= f) R := by
  cases hx with
  | ok ha => exact hf _ ha
  | fail hpiece fault => exact .fail hpiece fault

theorem map {f : α → β} {R : β → Prop} (hx : e.Reads x Q) (hf : ∀ a, Q a → R (f a)) :
    e.Reads (x.map f) R := by
  cases hx with
  | ok ha => exact .ok (hf _ ha)
  | fail hpiece fault => exact .fail hpiece fault

/-- What is read inside a piece is read inside the whole. -/
theorem of_piece {piece : Excerpt} (h : piece.PieceOf e) (hx : piece.Reads x Q) : e.Reads x Q := by
  cases hx with
  | ok ha => exact .ok ha
  | fail hinner fault => exact .fail (hinner.trans h) fault

end Reads

/-! ### Registers -/

theorem reads_readNumber (e : Excerpt) : e.Reads e.readNumber fun _ => True := by
  unfold readNumber
  split
  · exact .ok trivial
  · exact .fail (.refl e) _

theorem reads_readComponents (whole : Excerpt) (least : Nat) (t : Text) :
    whole.Reads (whole.readComponents least t) fun _ => True := by
  induction t generalizing least with
  | nil => exact .ok trivial
  | cons c t ih =>
      rw [readComponents]
      split
      · exact .fail (.refl whole) _
      · split
        · exact .fail (.refl whole) _
        · exact (ih _).bind fun mask _ => .ok trivial

theorem reads_readMask (e : Excerpt) : e.Reads e.readMask fun _ => True := by
  unfold readMask
  refine (reads_readComponents e 0 e.text).bind fun mask _ => ?_
  split
  · exact .fail (.refl e) _
  · exact .ok trivial

theorem reads_readGroups (fuel : Nat) (e : Excerpt) :
    e.Reads (e.readGroups fuel) fun result =>
      (∀ group ∈ result.1, group.PieceOf e) ∧ result.2.PieceOf e := by
  induction fuel generalizing e with
  | zero => exact .ok ⟨by simp, .refl e⟩
  | succ fuel ih =>
      unfold readGroups
      split
      · dsimp only
        split
        · exact .fail (.refl e) _
        · -- The loop goes on behind the group, in a piece of the excerpt.
          have hclose : (e.tail.startingAt ']').tail.PieceOf e :=
            (pieceOf_tail _).trans ((pieceOf_startingAt _ _).trans (pieceOf_tail e))
          refine (ih _).of_piece hclose |>.bind fun result hresult => .ok ⟨?_, ?_⟩
          · intro group hgroup
            rcases List.mem_cons.mp hgroup with rfl | hgroup
            · exact (pieceOf_before _ _).trans (pieceOf_tail e)
            · exact (hresult.1 group hgroup).trans hclose
          · exact hresult.2.trans hclose
      · exact .ok ⟨by simp, .refl e⟩

theorem reads_readRange (e : Excerpt) : e.Reads e.readRange fun _ => True := by
  unfold readRange
  split
  · rename_i left right hcut
    obtain ⟨hleft, hright⟩ := pieceOf_cutAt? hcut
    refine ((reads_readNumber left).of_piece hleft).bind fun first _ => ?_
    exact ((reads_readNumber right).of_piece hright).bind fun last _ => .ok trivial
  · exact (reads_readNumber e).bind fun n _ => .ok trivial

theorem reads_splitGroups {whole : Excerpt} {groups : List Excerpt}
    (h : ∀ group ∈ groups, group.PieceOf whole) :
    whole.Reads (whole.splitGroups groups) fun parts => parts.2.PieceOf whole := by
  unfold splitGroups
  split
  · exact .ok (h _ (by simp))
  · refine ((reads_readNumber _).of_piece (h _ (by simp))).bind fun n _ => .ok ?_
    exact h _ (by simp)
  · exact .fail (.refl whole) _

theorem reads_readSuffix (e : Excerpt) : e.Reads e.readSuffix fun _ => True := by
  unfold readSuffix
  split
  · exact .ok trivial
  · exact (reads_readMask e.tail).of_piece (pieceOf_tail e)
  · exact .fail (.refl e) _

theorem reads_readRegister (e : Excerpt) : e.Reads e.readRegister fun _ => True := by
  unfold readRegister
  dsimp only
  split
  · exact .fail (.refl e) _
  · split
    · exact .fail (pieceOf_before _ e) _
    · -- What is read from here on are pieces of what starts at the bracket.
      have hbracket := pieceOf_startingAt '[' e
      refine ((reads_readGroups _ _).of_piece hbracket).bind fun result hresult => ?_
      have hgroups : ∀ group ∈ result.1, group.PieceOf e := fun group hgroup =>
        (hresult.1 group hgroup).trans hbracket
      refine (reads_splitGroups hgroups).bind fun parts hrange => ?_
      refine ((reads_readRange parts.2).of_piece hrange).bind fun numbers _ => ?_
      split
      · exact .fail hrange _
      · refine ((reads_readSuffix result.2).of_piece ?_).bind fun mask _ => .ok trivial
        exact hresult.2.trans hbracket

/-! ### Declarations -/

theorem reads_readSemanticIndex {whole bracket : Excerpt} (h : bracket.PieceOf whole) :
    whole.Reads (whole.readSemanticIndex bracket) fun _ => True := by
  unfold readSemanticIndex
  split
  · exact .ok trivial
  · dsimp only
    have hdigits : bracket.tail.dropLast.PieceOf whole :=
      (pieceOf_dropLast _).trans ((pieceOf_tail bracket).trans h)
    split
    · refine ((reads_readNumber _).of_piece hdigits).bind fun index _ => ?_
      split
      · exact .fail hdigits _
      · exact .ok trivial
    · exact .fail (.refl whole) _

theorem reads_readSemantic (e : Excerpt) : e.Reads e.readSemantic fun _ => True := by
  unfold readSemantic
  refine (reads_readSemanticIndex (pieceOf_startingAt '[' e)).bind fun index _ => ?_
  split
  · exact .ok trivial
  · exact .fail (.refl e) _

theorem reads_readBinding {line : Excerpt} {items : List Excerpt} (file : RegisterFile)
    (h : ∀ item ∈ items, item.PieceOf line) :
    line.Reads (readBinding file items) fun _ => True := by
  cases items with
  | nil => exact .ok trivial
  | cons item items =>
      have hitem : item.PieceOf line := h item List.mem_cons_self
      rw [readBinding]
      split
      · refine ((reads_readSemantic item).of_piece hitem).bind fun binding _ => ?_
        exact .ok trivial
      · exact .ok trivial

theorem reads_readDeclaration {line rest : Excerpt} (h : rest.PieceOf line) :
    line.Reads (line.readDeclaration rest) fun d => d.span = line.span := by
  -- The items keep their places, so that a fault in one of them is found in the line.
  have hitems : ∀ item ∈ rest.splitTopLevel, item.PieceOf line := fun item hitem =>
    (pieceOf_of_mem_splitTopLevel hitem).trans h
  unfold readDeclaration
  cases hsplit : rest.splitTopLevel with
  | nil => exact .fail (.refl line) _
  | cons item items =>
      rw [hsplit] at hitems
      obtain ⟨hitem, hitems⟩ := List.forall_mem_cons.mp hitems
      dsimp only
      split
      · exact .fail (.refl line) _
      · refine ((reads_readRegister item).of_piece hitem).bind fun register _ => ?_
        split
        · exact .fail hitem _
        · exact (reads_readBinding register.file hitems).bind fun parts _ => .ok rfl

/-! ### The other tokens -/

theorem reads_readProperty (line rest : Excerpt) :
    line.Reads (line.readProperty rest) fun p => p.span = line.span := by
  unfold readProperty
  split
  · exact .ok rfl
  · exact .fail (.refl line) _

theorem reads_readImmediate {line rest : Excerpt} (h : rest.PieceOf line) :
    line.Reads (line.readImmediate rest) fun i => i.span = line.span := by
  unfold readImmediate
  dsimp only
  split
  · split
    · exact .fail (.refl line) _
    · split
      · exact .fail (.refl line) _
      · exact .ok rfl
  · exact .fail ((pieceOf_splitWord_fst rest).trans h) _

theorem reads_dropLabel (line : Excerpt) : line.Reads line.dropLabel fun _ => True := by
  unfold dropLabel
  dsimp only
  split
  · split
    · exact .ok trivial
    · exact .fail (pieceOf_splitWord_fst line) _
  · exact .ok trivial

theorem reads_readInstruction (line : Excerpt) :
    line.Reads line.readInstruction fun i => i.span = line.span := by
  unfold readInstruction
  refine (reads_dropLabel line).bind fun body _ => ?_
  dsimp only
  split
  · exact .ok rfl
  · exact .fail (.refl line) _

end Excerpt

def Token.span : Token → Span
  | property p => p.span
  | declaration d => d.span
  | immediate i => i.span
  | instruction i => i.span

/-- A token has the span of its line, and a problem is about a piece of the line. -/
theorem Excerpt.reads_readToken (line : Excerpt) :
    line.Reads line.readToken fun t => t.span = line.span := by
  have hrest := pieceOf_splitWord_snd line
  unfold readToken
  dsimp only
  split
  · exact (reads_readProperty line _).map fun _ h => h
  · split
    · exact (reads_readDeclaration hrest).map fun _ h => h
    · split
      · exact (reads_readImmediate hrest).map fun _ h => h
      · exact (reads_readInstruction line).map fun _ h => h

end ShaderBackend
