import LittleComputer.Fault

/-!
# Fields

An operand goes into a field of some bits of an instruction or of a whole word. A field takes the
integers of a range and keeps them in two's complement.
-/

namespace LittleComputer

structure Field where
  bits : Nat
  least : Int
  greatest : Int
deriving DecidableEq, Repr

namespace Field

def signed (bits : Nat) : Field :=
  ⟨bits, -(Nat.pow 2 (bits - 1) : Int), Nat.pow 2 (bits - 1) - 1⟩

def unsigned (bits : Nat) : Field := ⟨bits, 0, Nat.pow 2 bits - 1⟩

/-- A whole word takes signed and unsigned values. -/
def word : Field := ⟨16, -32768, 65535⟩

def Accepts (f : Field) (v : Int) : Prop := f.least ≤ v ∧ v ≤ f.greatest

instance (f : Field) (v : Int) : Decidable (f.Accepts v) := inferInstanceAs (Decidable (_ ∧ _))

/-- The bits that hold a value. -/
def pack (f : Field) (v : Int) : Except Fault (BitVec f.bits) :=
  if f.Accepts v then .ok (BitVec.ofInt f.bits v)
  else .error (.immediateRange v f.least f.greatest)

/-- All bits of the field set. -/
def mask (f : Field) : Nat := Nat.pow 2 f.bits - 1

@[simp] theorem bits_signed (n : Nat) : (signed n).bits = n := rfl

@[simp] theorem bits_unsigned (n : Nat) : (unsigned n).bits = n := rfl

@[simp] theorem bits_word : word.bits = 16 := rfl

end Field

end LittleComputer
