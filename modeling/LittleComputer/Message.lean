import LittleComputer.Text.Numeral

/-!
# Messages

A message is a template and the values that fill it in: `%v` and `%d` take the next value and `%%`
is a percent sign. Integers appear with their thousands grouped, texts as they are, in every
language setting.
-/

namespace LittleComputer.Message

inductive Value where
  | int (v : Int)
  | text (t : Text)

def Value.render : Value → Text
  | .int v => (groupedDecimal v).map .char
  | .text t => t

/-- What stands for a place with no value left for it. -/
def missing (verb : Glyph) : Text :=
  ("%!" : Text) ++ verb :: "(MISSING)"

/-- Fills the places of a template in order. -/
def fill : (template : Text) → List Value → Text
  | .char '%' :: .char '%' :: rest, values => .char '%' :: fill rest values
  | .char '%' :: verb :: rest, values =>
    if verb.is 'v' || verb.is 'd' then
      match values with
      | v :: more => v.render ++ fill rest more
      | [] => missing verb ++ fill rest []
    else .char '%' :: verb :: fill rest values
  | g :: rest, values => g :: fill rest values
  | [], _ => []

/-- A template written in the program. -/
def ofTemplate (template : String) (values : List Value) : Text :=
  fill (Text.ofString template) values

end LittleComputer.Message
