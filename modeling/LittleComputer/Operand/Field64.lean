import LittleComputer.Operand.Field

/-!
# Fields of 64-bit numbers

A `Field` takes any integer and has its bits at once. This one takes signed numbers of 64 bits and
gives a word: a number is cut to its lowest sixteen bits, and a mask clears those above the field.
The ends of its range and the mask are made by shifts.
-/

namespace LittleComputer

structure Field64 where
  bits : Nat
  least : Int64
  greatest : Int64
deriving DecidableEq, Repr

namespace Field64

def signed (bits : Nat) : Field64 :=
  ⟨bits, -Int64.ofBitVec (1#64 <<< (bits - 1)), Int64.ofBitVec (1#64 <<< (bits - 1)) - 1⟩

def unsigned (bits : Nat) : Field64 := ⟨bits, 0, Int64.ofBitVec (1#64 <<< bits) - 1⟩

/-- A whole word takes signed and unsigned values. -/
def word : Field64 := ⟨16, -32768, 65535⟩

/-- All bits of the field set, as far as a word has them. -/
def mask (f : Field64) : UInt16 := (UInt32.ofBitVec (1#32 <<< f.bits) - 1).toUInt16

/-- The word that holds a value in its lowest bits. -/
def pack (f : Field64) (v : Int64) : Except Fault UInt16 :=
  if v < f.least ∨ f.greatest < v then
    .error (.immediateRange v.toInt f.least.toInt f.greatest.toInt)
  else .ok (v.toUInt64.toUInt16 &&& f.mask)

end Field64

end LittleComputer
