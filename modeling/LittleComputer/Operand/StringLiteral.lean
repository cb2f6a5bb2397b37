import LittleComputer.Fault

/-!
# String literals

A string is written between double quotes. A backslash makes control characters of some letters, and
keeps a quote or a backslash as it is. Every character becomes one word, its code point modulo 2^16.
-/

namespace LittleComputer.StringLiteral

/-- The character that an escape stands for. -/
def escaped? : Char → Option Char
  | 'n' => some '\n'
  | 'r' => some '\r'
  | 't' => some '\t'
  | 'e' => some '\x1b'
  | '0' => some '\x00'
  | '\\' => some '\\'
  | '"' => some '"'
  | _ => none

/-- The word of a character. -/
def wordOf (c : Char) : UInt16 := UInt16.ofNat c.toNat

/-- Reads what stands between the quotes; `seen` holds the words so far, last first. -/
def wordsFrom? : List Char → (seen : List UInt16) → Option (List UInt16)
  | [], seen => some seen.reverse
  | '\\' :: c :: rest, seen =>
    match escaped? c with
    | some e => wordsFrom? rest (wordOf e :: seen)
    | none => none
  | c :: rest, seen => if c = '\\' ∨ c = '"' then none else wordsFrom? rest (wordOf c :: seen)

/-- What stands between the quotes of a literal. -/
def body? : Text → Option Text
  | .char '"' :: rest => if rest.getLast? = some (.char '"') then some rest.dropLast else none
  | _ => none

/-- The words of a literal, without the zero that ends a string. -/
def words (literal : Text) : Except Fault (List UInt16) :=
  match (body? literal).bind fun body => wordsFrom? (Text.scalars body) [] with
  | some ws => .ok ws
  | none => .error .malformedString

end LittleComputer.StringLiteral
