import LittleComputer.Expression.Binary64
import LittleComputer.Operand.Literal

/-!
# The interpreter of expressions

An operand between `$(` and `)` is an expression of a language of its own. The assembler hands its
text to an interpreter and reads the result from a variable. It asks nothing else of the language,
so everything about operands is said of any interpreter, and what a statement needs to know of the
language is a hypothesis of its own.
-/

namespace LittleComputer

/-- What comes of running a text, seen in the variable that holds the result. -/
inductive Execution where
  | integer (v : Int)
  | float (x : Float)
  /-- The result is a value of another kind, or there is none. -/
  | other
  /-- The text is refused, or it ends with an error. -/
  | failure
  /-- The interpreter itself breaks down and takes the assembler with it. -/
  | crash (message : Text)

namespace Execution

/-- The number that the result stands for: an integer of 64 bits, or a float that is a whole number
of at most 31 bits. -/
def number? : Execution → Option Int
  | .integer v => if fitsInt64 v then some v else none
  | .float x =>
    match Expression.Binary64.truncate? x with
    | some v =>
      if Expression.Binary64.orderInt v x = .eq ∧ v.natAbs ≤ 2147483647 then some v else none
    | none => none
  | _ => none

end Execution

/-- An interpreter runs a text in which some names stand for integers. -/
class Interpreter where
  execute : (names : String → Option Int) → (text : Text) → Execution

/-- The name that holds the result. -/
def resultName : String := "rc"

/-- The text that is run for an expression: it assigns the expression to the result. -/
def resultText (body : Text) : Text := (resultName : Text) ++ .char '=' :: body ++ [.char '\n']

end LittleComputer
