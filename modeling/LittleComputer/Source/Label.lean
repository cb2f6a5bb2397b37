import LittleComputer.Instruction

/-!
# Labels

A label is an identifier of ASCII letters, digits and underscores that is neither a keyword nor a
register. Its name is its upper-case form.
-/

namespace LittleComputer

/-- An ASCII letter or an underscore. -/
def Glyph.startsIdentifier : Glyph → Bool
  | .char c => c.isAlpha || c == '_'
  | .stray _ => false

/-- An ASCII letter, a digit or an underscore. -/
def Glyph.continuesIdentifier : Glyph → Bool
  | .char c => c.isAlphanum || c == '_'
  | .stray _ => false

namespace Text

def isIdentifier : Text → Bool
  | [] => false
  | g :: rest => g.startsIdentifier && rest.all Glyph.continuesIdentifier

/-- The name of a label, if the word may be one. -/
def labelName (word : Text) : Except Fault Text :=
  if word.isIdentifier && (Mnemonic.ofWord? word).isNone && (Register.ofWord? word).isNone then
    .ok word.upper
  else .error (.invalidLabel word)

/-- What can stand before the colon of a label: no colon, no string and no expression. -/
def isLabelGlyph (g : Glyph) : Bool := !(g.is '"' || g.is '(' || g.is ':')

/-- Splits at a colon that no quote and no parenthesis comes before. -/
def splitLabel? (t : Text) : Option (Text × Text) :=
  match t.dropWhile isLabelGlyph with
  | g :: rest => if g.is ':' then some (trim (t.takeWhile isLabelGlyph), trim rest) else none
  | [] => none

end Text

end LittleComputer
