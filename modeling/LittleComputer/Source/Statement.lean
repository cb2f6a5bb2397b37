import LittleComputer.Source.Input
import LittleComputer.Source.Label
import LittleComputer.Source.Word

/-!
# Statements

A line of source holds at most one statement: a label, a keyword and operands, each of which may be
absent. Lines without any are dropped, and nothing behind the first `.END` is looked at.

With implicit labels a word that is no keyword, right before one that is, is taken as a label
although no colon follows it.
-/

namespace LittleComputer

structure Statement where
  line : SourceLine
  label : Option Text
  operation : Operation
  /-- The operands as they are written. -/
  operands : List Text
deriving DecidableEq, Repr, Inhabited

namespace Statement

/-- Whether the statement ends the program. -/
def isEnd (s : Statement) : Bool := s.operation == .keyword .finish

/-- The statement of a line whose words are these, behind the label if one was split off. -/
def ofWords (implicitLabels : Bool) (line : SourceLine) (label : Option Text) :
    List Text → Except Fault Statement
  | [] => .ok ⟨line, label, .empty, []⟩
  | word :: rest =>
    match Mnemonic.ofWord? word with
    | some m => .ok ⟨line, label, .keyword m, rest⟩
    | none =>
      match implicitLabels && label.isNone, rest with
      | true, second :: operands =>
        match Mnemonic.ofWord? second with
        | some m => do
          let name ← word.labelName
          return ⟨line, some name, .keyword m, operands⟩
        | none => .error (.unknownInstruction word.upper)
      | _, _ => .error (.unknownInstruction word.upper)

/-- The statement of a line, if it holds one. -/
def ofLine (implicitLabels : Bool) (line : SourceLine) : Except Fault (Option Statement) :=
  let text := line.text.stripComment.trim
  if text.isEmpty then .ok none
  else
    match text.splitLabel? with
    | some (label, rest) => do
      let name ← label.labelName
      some <$> ofWords implicitLabels line (some name) rest.words
    | none => some <$> ofWords implicitLabels line none text.words

end Statement

/-- The statements of a source up to the first fault, and that fault. -/
structure Listing where
  statements : List Statement
  error : Option Error
deriving DecidableEq, Repr

namespace Listing

/-- Goes on behind the statements `seen`, which are kept last first. -/
def ofLinesFrom (implicitLabels : Bool) : List SourceLine → (seen : List Statement) → Listing
  | [], seen => ⟨seen.reverse, none⟩
  | line :: rest, seen =>
    match Statement.ofLine implicitLabels line with
    | .error fault => ⟨seen.reverse, some (.located line fault)⟩
    | .ok none => ofLinesFrom implicitLabels rest seen
    | .ok (some s) =>
      if s.isEnd then ⟨(s :: seen).reverse, none⟩
      else ofLinesFrom implicitLabels rest (s :: seen)

def ofLines (implicitLabels : Bool) (lines : List SourceLine) : Listing :=
  ofLinesFrom implicitLabels lines []

end Listing

end LittleComputer
