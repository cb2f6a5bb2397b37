/-!
# Text as it is read

Source and object files are bytes, most of them UTF-8. A `Text` keeps what UTF-8 gives a meaning to
as Unicode scalar values and every other byte as itself, so that no byte is lost and every function
on text can speak of characters.

`Text.ofBytes` reads from the left and takes the sequence that starts at the head if there is one;
otherwise the head is a stray byte and reading goes on behind it. `Text.toBytes` goes back.
-/

namespace LittleComputer

/-- One unit of text: a Unicode scalar value, or a byte that belongs to no UTF-8 sequence. -/
inductive Glyph where
  | char (c : Char)
  | stray (b : UInt8)
deriving DecidableEq, Repr, Inhabited

abbrev Text := List Glyph

/-- The character that stands for a stray byte where only characters will do. -/
def replacementChar : Char := '\uFFFD'

namespace Glyph

/-- The glyph as a character; a stray byte counts as U+FFFD. -/
def scalar : Glyph → Char
  | .char c => c
  | .stray _ => replacementChar

def bytes : Glyph → List UInt8
  | .char c => String.utf8EncodeChar c
  | .stray b => [b]

/-- Number of bytes. -/
def width (g : Glyph) : Nat := g.bytes.length

/-- Whether the glyph is the given character; no stray byte is. -/
def is (g : Glyph) (c : Char) : Bool := g == .char c

@[simp] theorem scalar_char (c : Char) : (Glyph.char c).scalar = c := rfl

@[simp] theorem is_iff (g : Glyph) (c : Char) : g.is c = true ↔ g = .char c := by
  simp [is]

end Glyph

namespace Text

def ofString (s : String) : Text := s.toList.map .char

instance : Coe String Text := ⟨ofString⟩

/-- The characters of a text, with U+FFFD for each stray byte. -/
def scalars (t : Text) : List Char := t.map Glyph.scalar

def toBytes (t : Text) : List UInt8 := t.flatMap Glyph.bytes

/-- Number of bytes of a text. -/
def width (t : Text) : Nat := t.foldl (fun n g => n + g.width) 0

/-- A continuation byte of UTF-8. -/
def isTail (b : UInt8) : Bool := b.toNat / 64 == 2

/-- The character of a code point that is one and is not below `least`. -/
def scalarFrom? (least code : Nat) : Option Char :=
  if h : least ≤ code ∧ code.isValidChar then some (Char.ofNatAux code h.2) else none

/-- The UTF-8 sequence that starts with `a`, given the bytes behind it: its character and the number
of bytes it takes from them. Overlong forms and surrogates are no sequences. -/
def lead? (a : UInt8) (rest : List UInt8) : Option (Char × Nat) :=
  let a := a.toNat
  if a < 0x80 then
    (scalarFrom? 0 a).map (·, 0)
  else if a / 32 == 6 then
    match rest with
    | b :: _ =>
      if isTail b then (scalarFrom? 0x80 (a % 32 * 64 + b.toNat % 64)).map (·, 1) else none
    | _ => none
  else if a / 16 == 14 then
    match rest with
    | b :: c :: _ =>
      if isTail b && isTail c then
        (scalarFrom? 0x800 ((a % 16 * 64 + b.toNat % 64) * 64 + c.toNat % 64)).map (·, 2)
      else none
    | _ => none
  else if a / 8 == 30 then
    match rest with
    | b :: c :: d :: _ =>
      if isTail b && isTail c && isTail d then
        (scalarFrom? 0x10000
          (((a % 8 * 64 + b.toNat % 64) * 64 + c.toNat % 64) * 64 + d.toNat % 64)).map (·, 3)
      else none
    | _ => none
  else none

/-- Reads the bytes behind the next `skip` ones; `seen` holds the glyphs so far, last first. -/
def ofBytesFrom : (skip : Nat) → List UInt8 → (seen : Text) → Text
  | _, [], seen => seen.reverse
  | k + 1, _ :: rest, seen => ofBytesFrom k rest seen
  | 0, a :: rest, seen =>
    match lead? a rest with
    | some (c, k) => ofBytesFrom k rest (.char c :: seen)
    | none => ofBytesFrom 0 rest (.stray a :: seen)

def ofBytes (bytes : List UInt8) : Text := ofBytesFrom 0 bytes []

@[simp] theorem scalars_nil : scalars [] = [] := rfl

@[simp] theorem scalars_cons (g : Glyph) (t : Text) :
    scalars (g :: t) = g.scalar :: scalars t := rfl

@[simp] theorem scalars_append (s t : Text) : scalars (s ++ t) = scalars s ++ scalars t := by
  simp [scalars]

@[simp] theorem scalars_ofString (s : String) : scalars (ofString s) = s.toList := by
  simp [scalars, ofString, Function.comp_def]

@[simp] theorem toBytes_append (s t : Text) : toBytes (s ++ t) = toBytes s ++ toBytes t := by
  simp [toBytes]

end Text

end LittleComputer
