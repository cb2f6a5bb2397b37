import LittleComputer.Text.Glyph

/-!
# Lines

A text is cut at newlines. A last line that no newline ends counts if it holds anything. A carriage
return before the newline belongs to the line end, not to the line, but it counts towards the
length that a line may have.
-/

namespace LittleComputer

/-- A line must be shorter than this, in bytes and without its newline. -/
def lineLimit : Nat := 65536

namespace Text

/-- Cuts at newlines; `line` is the line being read, last glyph first, `seen` the lines before it,
last line first. -/
def cutLinesFrom : Text → (line : Text) → (seen : List Text) → List Text
  | [], [], seen => seen.reverse
  | [], line, seen => (line.reverse :: seen).reverse
  | g :: rest, line, seen =>
    if g.is '\n' then cutLinesFrom rest [] (line.reverse :: seen)
    else cutLinesFrom rest (g :: line) seen

/-- The lines of a text without their newlines. -/
def cutLines (t : Text) : List Text := cutLinesFrom t [] []

/-- Takes a carriage return off the end. -/
def dropReturn (t : Text) : Text :=
  match t.reverse with
  | g :: rest => if g.is '\r' then rest.reverse else t
  | [] => t

/-- Whether a line, its carriage return included, is short enough to be read. -/
def isReadableLine (t : Text) : Bool := t.width < lineLimit

end Text

end LittleComputer
