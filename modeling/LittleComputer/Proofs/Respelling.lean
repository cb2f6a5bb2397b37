import LittleComputer.Proofs.Outcome
import LittleComputer.Source.Statement

/-!
# Lines in another spelling

A change of spelling that leaves the keywords, the labels and the borders of words where they are
takes the statement of a line to the statement with its operands in the new spelling, and a fault to
the fault that quotes the new one.
-/

namespace LittleComputer

/-- `f` gives words and whole texts another spelling, and `g` does so for the words that a fault
quotes. -/
structure Respelling (f : Text → Text) (g : Fault → Fault) : Prop where
  empty : ∀ t, (f t).isEmpty = t.isEmpty
  splitLabel : ∀ t, (f t).splitLabel? = t.splitLabel?.map fun parts => (f parts.1, f parts.2)
  words : ∀ t, (f t).words = t.words.map f
  upper : ∀ word, (f word).upper = word.upper
  labelName : ∀ word, (f word).labelName = word.labelName.mapError g
  unknown : ∀ word, g (.unknownInstruction word) = .unknownInstruction word

/-- The statement on another line, with its operands in another spelling. -/
def Statement.respelled (f : Text → Text) (line : SourceLine) (s : Statement) : Statement :=
  ⟨line, s.label, s.operation, s.operands.map f⟩

namespace Respelling

variable {f : Text → Text} {g : Fault → Fault}

/-- Nothing is respelled. -/
theorem refl : Respelling id id where
  empty := fun _ => rfl
  splitLabel := fun t => Option.map_id'.symm
  words := fun t => (List.map_id t.words).symm
  upper := fun _ => rfl
  labelName := by
    intro word
    rw [id_eq]
    cases word.labelName with
    | error fault => rfl
    | ok name => rfl
  unknown := fun _ => rfl

variable (h : Respelling f g)

include h

theorem keyword (word : Text) : Mnemonic.ofWord? (f word) = Mnemonic.ofWord? word := by
  unfold Mnemonic.ofWord?
  rw [h.upper]

theorem ofWords (implicitLabels : Bool) (line line' : SourceLine) (label : Option Text)
    (words : List Text) :
    Statement.ofWords implicitLabels line' label (words.map f) =
      (Statement.respelled f line' <$> Statement.ofWords implicitLabels line label words).mapError
        g := by
  cases words with
  | nil => rfl
  | cons word rest =>
    rw [List.map_cons]
    unfold Statement.ofWords
    simp only [h.keyword, h.upper]
    cases Mnemonic.ofWord? word with
    | some m => rfl
    | none =>
      have hunknown : Except.error (.unknownInstruction word.upper) =
          (Except.error (g (.unknownInstruction word.upper)) : Except Fault Statement) := by
        rw [h.unknown]
      cases implicitLabels && label.isNone with
      | false => exact hunknown
      | true =>
        cases rest with
        | nil => exact hunknown
        | cons second operands =>
          simp only [List.map_cons, h.keyword, h.labelName]
          cases Mnemonic.ofWord? second with
          | none => exact hunknown
          | some m =>
            cases word.labelName with
            | error fault => rfl
            | ok name => rfl

/-- A line in another spelling has the respelled statement. -/
theorem ofLine (implicitLabels : Bool) {line line' : SourceLine}
    (htext : line'.text.stripComment.trim = f line.text.stripComment.trim) :
    Statement.ofLine implicitLabels line' =
      (Option.map (Statement.respelled f line') <$> Statement.ofLine implicitLabels line).mapError
        g := by
  have hsome : ∀ x : Except Fault Statement,
      some <$> (Statement.respelled f line' <$> x).mapError g =
        (Option.map (Statement.respelled f line') <$> some <$> x).mapError g := by
    intro x
    cases x with
    | error fault => rfl
    | ok s => rfl
  unfold Statement.ofLine
  simp only [htext, h.empty, h.splitLabel, h.words]
  split
  · rfl
  · cases line.text.stripComment.trim.splitLabel? with
    | none =>
      simp only [Option.map_none, h.ofWords implicitLabels line line']
      exact hsome _
    | some parts =>
      simp only [Option.map_some, h.labelName, h.words]
      cases parts.1.labelName with
      | error fault => rfl
      | ok name =>
        have hname : (Except.ok name : Except Fault Text).mapError g = .ok name := rfl
        simp only [hname, h.ofWords implicitLabels line line']
        exact hsome _

end Respelling

end LittleComputer
