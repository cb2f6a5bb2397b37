import LittleComputer.Text.Graphic
import LittleComputer.Text.Numeral

/-!
# Quoted text

A text between double quotes, with escapes for the quote, the backslash and everything that would
not show. A stray byte is written as `\x` and its two digits, so the quoted form is a string.
-/

namespace LittleComputer

/-- The lower-case hexadecimal digits of a number, filled with zeros up to the given count. -/
def hexLower (count n : Nat) : List Char :=
  (List.range count).reverse.map fun i => (hexDigit (n / Nat.pow 16 i % 16)).toLower

/-- The letter of a one-letter escape for a control character. -/
def controlEscape? (c : Char) : Option Char :=
  [('\x07', 'a'), ('\x08', 'b'), ('\x0C', 'f'), ('\n', 'n'), ('\r', 'r'), ('\t', 't'),
    ('\x0B', 'v')].lookup c

/-- How a glyph is written between the quotes. -/
def Glyph.quoted : Glyph → List Char
  | .stray b => '\\' :: 'x' :: hexLower 2 b.toNat
  | .char c =>
    if c = '"' ∨ c = '\\' then ['\\', c]
    else if isGraphic c then [c]
    else
      match controlEscape? c with
      | some letter => ['\\', letter]
      | none =>
        let n := c.toNat
        if n < 0x80 then '\\' :: 'x' :: hexLower 2 n
        else if n < 0x10000 then '\\' :: 'u' :: hexLower 4 n
        else '\\' :: 'U' :: hexLower 8 n

def Text.quoted (t : Text) : Text :=
  (('"' :: t.flatMap Glyph.quoted) ++ ['"']).map .char

end LittleComputer
