import LittleComputer.Operand.Interpreter

/-!
# What is asked of an interpreter

The two passes read the same operands with different symbols, so they can agree only if an
expression does not change its value when further names get one. That is the first law. The second
says of two shapes of expressions what they come to: a symbol, and the distance to a symbol in
words. A statement that needs a law has it among its hypotheses; most statements need none. No law
says that an interpreter does not crash: what it does to an assembly if it does is said where that
matters.
-/

namespace LittleComputer

namespace Expression

/-! ## Names in capitals -/

def isCapital (c : Char) : Bool := 'A' ≤ c && c ≤ 'Z'

def isSmall (c : Char) : Bool := 'a' ≤ c && c ≤ 'z'

/-- What can follow the first character of a name in capitals. -/
def isCapitalPart (c : Char) : Bool := isCapital c || ('0' ≤ c && c ≤ '9') || c == '_'

/-- A capital, and then capitals, digits and underscores. -/
def isCapitalName (s : String) : Bool :=
  match s.toList with
  | [] => false
  | c :: rest => isCapital c && rest.all isCapitalPart

/-- Every name that has a value keeps it. A name that is new holds no small letter, so it takes the
place of no word of the language. -/
structure MoreNames (names more : String → Option Int) : Prop where
  kept : ∀ name v, names name = some v → more name = some v
  new : ∀ name, names name = none → more name ≠ none → name.toList.any isSmall = false

end Expression

/-- The expression for the distance in words from the end of a statement to a symbol. -/
def displacementTo (symbol : String) : Text :=
  ("(" : Text) ++ (symbol : Text) ++ (" - PC - 2) // 2" : Text)

namespace Interpreter

variable [Interpreter]

/-- A text that does not fail does the same with more names. Nothing is said of one that fails: what
it lacks may be a name. -/
class Steady : Prop where
  execute_of_moreNames {names more : String → Option Int} (h : Expression.MoreNames names more)
    {text : Text} (hrun : execute names text ≠ .failure) :
    execute more text = execute names text

/-- A name in capitals stands for its value, and differences and floored quotients are those of the
integers. -/
class Calculates : Prop where
  execute_symbol {names : String → Option Int} {s : String} {v : Int}
    (h : Expression.isCapitalName s = true) (hs : names s = some v) :
    execute names (resultText (s : Text)) = .integer v
  execute_displacementTo {names : String → Option Int} {s : String} {a pc : Int}
    (h : Expression.isCapitalName s = true) (hs : names s = some a) (hpc : names "PC" = some pc) :
    execute names (resultText (displacementTo s)) = .integer (Int.fdiv (a - pc - 2) 2)

end Interpreter

end LittleComputer
