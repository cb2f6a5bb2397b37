import LittleComputer.Text.Numeral

/-!
# Numeric literals

A literal is decimal, with or without `#`, or hexadecimal behind `x` or `0x`. The sign stands behind
the mark, and the value has to fit 64 bits.
-/

namespace LittleComputer

/-- What fits a signed integer of 64 bits. -/
def fitsInt64 (v : Int) : Bool := -0x8000000000000000 ≤ v && v < 0x8000000000000000

namespace Text

/-- Base and digits of a literal, with the mark of the base taken off. -/
def splitBase : Text → Nat × Text
  | .char '#' :: rest => (10, rest)
  | .char '0' :: .char 'x' :: rest => (16, rest)
  | .char '0' :: .char 'X' :: rest => (16, rest)
  | .char 'x' :: rest => (16, rest)
  | .char 'X' :: rest => (16, rest)
  | word => (10, word)

/-- The integer that a literal denotes, whatever its size. -/
def denoted? (word : Text) : Option Int := integer? word.splitBase.1 word.splitBase.2

/-- The value of a literal. -/
def literal? (word : Text) : Option Int := word.denoted?.filter fitsInt64

/-- The text of an expression, if the word is one: what stands between `$(` and the closing `)`. -/
def expression? : Text → Option Text
  | .char '$' :: .char '(' :: rest =>
    if rest.getLast? = some (.char ')') then some rest.dropLast else none
  | _ => none

end Text

end LittleComputer
