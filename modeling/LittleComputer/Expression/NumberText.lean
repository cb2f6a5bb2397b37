import LittleComputer.Expression.Binary64
import LittleComputer.Text.Numeral

/-!
# Numbers from strings

An integer is read in a base from 2 to 36, or in the base that its text names. A float is a decimal
number or a hexadecimal one with a power of two behind it, an infinity or NaN. Underscores may stand
between the digits of a float.
-/

namespace LittleComputer.Expression

/-- Takes the sign off a numeral. -/
def splitSign : List Char → Bool × List Char
  | '-' :: rest => (true, rest)
  | '+' :: rest => (false, rest)
  | cs => (false, cs)

/-! ## Integers -/

/-- The base that a numeral names behind its leading zero. -/
def namedBase? : List Char → Option Nat
  | '0' :: 'x' :: _ :: _ => some 16
  | '0' :: 'X' :: _ :: _ => some 16
  | '0' :: 'o' :: _ :: _ => some 8
  | '0' :: 'O' :: _ :: _ => some 8
  | '0' :: 'b' :: _ :: _ => some 2
  | '0' :: 'B' :: _ :: _ => some 2
  | _ => none

/-- Digits of a base, of the base that the numeral names if it is the same, or of either if `base`
is zero. In the last case a numeral with a leading zero is zero. -/
def naturalOfChars? (base : Nat) (cs : List Char) : Option Nat :=
  match namedBase? cs with
  | some b =>
    if base = 0 ∨ base = b then Text.natural? b ((cs.drop 2).map .char)
    else Text.natural? base (cs.map .char)
  | none =>
    if base = 0 then
      if cs.head? = some '0' then (if cs.all (· == '0') then some 0 else none)
      else Text.natural? 10 (cs.map .char)
    else Text.natural? base (cs.map .char)

/-- An integer in a base from 2 to 36, or in the base it names if `base` is zero. -/
def intOfChars? (base : Nat) (cs : List Char) : Option Int :=
  let (negative, digits) := splitSign cs
  (naturalOfChars? base digits).map fun n => if negative then -(n : Int) else n

/-! ## Floats -/

/-- Whether a character is a digit of the base. -/
def isDigitIn (base : Nat) (c : Char) : Bool :=
  match digitValue? c with
  | some d => d < base
  | none => false

/-- Whether every underscore of a numeral stands between digits of the base. `digitBefore` says that
a digit stands before the text; a base mark counts as one. -/
def areUnderscoresInside (base : Nat) : (digitBefore : Bool) → List Char → Bool
  | _, [] => true
  | digitBefore, '_' :: c :: rest =>
    digitBefore && isDigitIn base c && areUnderscoresInside base true rest
  | _, ['_'] => false
  | _, c :: rest => areUnderscoresInside base (isDigitIn base c) rest

/-- A number without a sign: digits of the base with or without a point, then an exponent behind the
given mark. Without an exponent the number is refused if one is `needed`. The result is what the
digits mean without the point, the number of digits behind the point, and the exponent. -/
def scaledOfChars? (base : Nat) (mark : Char) (needed : Bool) (cs : List Char) :
    Option (Nat × Nat × Int) :=
  let isDigit := isDigitIn base
  let whole := cs.takeWhile isDigit
  let behindWhole := cs.dropWhile isDigit
  let (fraction, behind) := match behindWhole with
    | '.' :: rest => (rest.takeWhile isDigit, rest.dropWhile isDigit)
    | rest => ([], rest)
  let exponent? : Option Int := match behind with
    | [] => if needed then none else some 0
    | e :: rest =>
      if e.toLower = mark then
        let (negative, digits) := splitSign rest
        (Text.natural? 10 (digits.map .char)).map fun n => if negative then -(n : Int) else n
      else none
  match Text.natural? base ((whole ++ fraction).map .char), exponent? with
  | some n, some e => some (n, fraction.length, e)
  | _, _ => none

def decimalOfChars? (cs : List Char) : Option Float :=
  if areUnderscoresInside 10 false cs then
    (scaledOfChars? 10 'e' false (cs.filter (· != '_'))).map fun (n, places, e) =>
      Binary64.ofDecimal n (e - places)
  else none

/-- The text behind `0x`. -/
def hexadecimalOfChars? (cs : List Char) : Option Float :=
  if areUnderscoresInside 16 true cs then
    (scaledOfChars? 16 'p' true (cs.filter (· != '_'))).map fun (n, places, e) =>
      Binary64.ofBinary n (e - 4 * places)
  else none

/-- A float from its text: a number that is not too large, an infinity or NaN, in either case of
letters. -/
def floatOfChars? (cs : List Char) : Option Float :=
  let (negative, body) := splitSign cs
  let word := String.ofList (body.map Char.toLower)
  let magnitude :=
    if word = "inf" ∨ word = "infinity" then some Binary64.infinity
    else if word = "nan" then some (0.0 / 0.0)
    else
      let number := match body with
        | '0' :: 'x' :: c :: rest => hexadecimalOfChars? (c :: rest)
        | '0' :: 'X' :: c :: rest => hexadecimalOfChars? (c :: rest)
        | _ => decimalOfChars? body
      match number with
      | some x => if x.isFinite then some x else none
      | none => none
  magnitude.map fun x => if negative then -x else x

end LittleComputer.Expression
