import LittleComputer.Text.Glyph

/-!
# White space

What counts as white space between words and at the ends of a line, as ranges of code points, and
the trimming that goes with it.
-/

namespace LittleComputer

/-- Whether a code point lies in one of the closed ranges. -/
def inRanges (ranges : List (Nat × Nat)) (n : Nat) : Bool :=
  ranges.any fun r => r.1 ≤ n && n ≤ r.2

/-- The white space of Unicode 17.0: 25 code points. -/
def blankRanges : List (Nat × Nat) :=
  [(0x09, 0x0D), (0x20, 0x20), (0x85, 0x85), (0xA0, 0xA0), (0x1680, 0x1680), (0x2000, 0x200A),
   (0x2028, 0x2029), (0x202F, 0x202F), (0x205F, 0x205F), (0x3000, 0x3000)]

def isBlank (c : Char) : Bool := inRanges blankRanges c.toNat

/-- A stray byte is not blank. -/
def Glyph.isBlank (g : Glyph) : Bool := LittleComputer.isBlank g.scalar

/-- Takes the white space off both ends. -/
def Text.trim (t : Text) : Text :=
  ((t.dropWhile Glyph.isBlank).reverse.dropWhile Glyph.isBlank).reverse

@[simp] theorem Text.trim_nil : Text.trim [] = [] := rfl

end LittleComputer
