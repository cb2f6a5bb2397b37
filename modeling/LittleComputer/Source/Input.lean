import LittleComputer.Fault
import LittleComputer.Text.Line

/-!
# Reading input

An input delivers its text line by line. Reading stops at the first line that reaches the length
limit; the lines before it have been delivered. A broken input delivers all it has and then fails.
-/

namespace LittleComputer

structure Input where
  text : Text
  /-- Whether the input fails once its text is delivered. -/
  broken : Bool := false

/-- What was read: the lines delivered, and the fault that ended reading, if one did. -/
structure Reading where
  lines : List Text
  fault : Option Fault

namespace Input

def read (input : Input) : Reading :=
  let lines := input.text.cutLines
  { lines := (lines.takeWhile Text.isReadableLine).map Text.dropReturn
    fault :=
      if lines.all Text.isReadableLine then
        if input.broken then some .unexpectedEnd else none
      else some .lineTooLong }

end Input

/-- Numbers lines from 1. -/
def SourceLine.ofTexts (texts : List Text) : List SourceLine :=
  texts.zipIdx.map fun (text, index) => ⟨(index : Int) + 1, text⟩

def Reading.sourceLines (r : Reading) : List SourceLine := SourceLine.ofTexts r.lines

end LittleComputer
