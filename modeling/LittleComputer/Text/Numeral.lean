import LittleComputer.Text.Glyph

/-!
# Numerals

Reading numbers in a base from 2 to 36 and writing them: four hexadecimal digits for a machine word,
decimal with the thousands grouped for messages.
-/

namespace LittleComputer

/-- The value of a digit or letter as a digit: `0` to `9`, then `a` to `z` in either case. -/
def digitValue? (c : Char) : Option Nat :=
  let n := c.toNat
  if 0x30 ≤ n ∧ n ≤ 0x39 then some (n - 0x30)
  else if 0x41 ≤ n ∧ n ≤ 0x5A then some (n - 0x41 + 10)
  else if 0x61 ≤ n ∧ n ≤ 0x7A then some (n - 0x61 + 10)
  else none

/-- The value of a glyph as a digit of the base. -/
def Glyph.digit? (base : Nat) (g : Glyph) : Option Nat :=
  match digitValue? g.scalar with
  | some d => if d < base then some d else none
  | none => none

namespace Text

/-- Goes on reading digits behind the number read so far. -/
def naturalFrom? (base : Nat) : Text → (value : Nat) → Option Nat
  | [], value => some value
  | g :: rest, value =>
    match g.digit? base with
    | some d => naturalFrom? base rest (value * base + d)
    | none => none

/-- One or more digits of the base and nothing else. -/
def natural? (base : Nat) (t : Text) : Option Nat :=
  if t.isEmpty then none else naturalFrom? base t 0

/-- An optional sign, then one or more digits of the base. -/
def integer? (base : Nat) (t : Text) : Option Int :=
  match t with
  | g :: rest =>
    if g.is '-' then (natural? base rest).map fun n => -(n : Int)
    else if g.is '+' then (natural? base rest).map Int.ofNat
    else (natural? base t).map Int.ofNat
  | [] => none

end Text

/-- The hexadecimal digit of a number below 16, in upper case. -/
def hexDigit (n : Nat) : Char :=
  if n < 10 then Char.ofNat (0x30 + n) else Char.ofNat (0x37 + n)

/-- The four hexadecimal digits of a word. -/
def hexWord (w : UInt16) : List Char :=
  let n := w.toNat
  [hexDigit (n / 4096), hexDigit (n / 256 % 16), hexDigit (n / 16 % 16), hexDigit (n % 16)]

/-- A word as object files and reports write it, `0x` and four digits. -/
def hexWordText (w : UInt16) : Text := ('0' :: 'x' :: hexWord w).map .char

/-- The hexadecimal digits of a number in upper case, at least four. -/
def hexAtLeastFour (n : Nat) : List Char :=
  if n < 65536 then hexWord n.toUInt16 else (Nat.toDigits 16 n).map Char.toUpper

/-- Puts a comma behind every third digit; the digits run from the last to the first. -/
def groupThousands : List Char → List Char
  | a :: b :: c :: d :: rest => a :: b :: c :: ',' :: groupThousands (d :: rest)
  | digits => digits

/-- A decimal integer with its thousands grouped by commas. -/
def groupedDecimal (v : Int) : List Char :=
  let digits := (groupThousands (Nat.toDigits 10 v.natAbs).reverse).reverse
  if v < 0 then '-' :: digits else digits

/-- A decimal integer. -/
def decimal (v : Int) : List Char :=
  let digits := Nat.toDigits 10 v.natAbs
  if v < 0 then '-' :: digits else digits

example : String.ofList (groupedDecimal (-1234567)) = "-1,234,567" := by decide +kernel
example : String.ofList (groupedDecimal 999) = "999" := by decide +kernel
example : String.ofList (hexAtLeastFour 0x1A) = "001A" := by decide +kernel

end LittleComputer
