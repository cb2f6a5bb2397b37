import LittleComputer.Fault

/-!
# Registers and instructions

The registers of the machine, its instructions with their operands, and the words that hold them.
The top four bits of a word are the opcode. Aliases such as `NOT` or `HALT` are not instructions of
their own.

`Instruction.word` shifts the fields to their places and joins them; `Instruction.bits` lists the
same fields side by side. `Instruction.decode?` reads a word back; words with bits set that their
instruction does not use hold no instruction.
-/

namespace LittleComputer

/-- One of the eight general registers, by its number. -/
abbrev Register := BitVec 3

namespace Register

/-- The register that a word names: `R0` to `R7`, in either case. -/
def ofWord? : Text → Option Register
  | [.char r, .char d] =>
    if (r = 'R' ∨ r = 'r') ∧ 0x30 ≤ d.toNat ∧ d.toNat ≤ 0x37 then
      some (BitVec.ofNat 3 (d.toNat - 0x30))
    else none
  | _ => none

def parse (word : Text) : Except Fault Register :=
  match ofWord? word with
  | some r => .ok r
  | none => .error (.invalidRegister word)

end Register

inductive Operator where
  | add | and | xor
deriving DecidableEq, Repr

inductive Access where
  | loadByte | loadWord | storeByte | storeWord
deriving DecidableEq, Repr

inductive Shift where
  | left | rightLogical | rightArithmetic
deriving DecidableEq, Repr

inductive Instruction where
  | operateRegister (op : Operator) (target left right : Register)
  | operateImmediate (op : Operator) (target left : Register) (value : BitVec 5)
  /-- Jumps by an offset in words if one of the chosen flags negative, zero, positive is set. -/
  | branch (flags : BitVec 3) (offset : BitVec 9)
  | jump (base : Register)
  | call (offset : BitVec 11)
  | callRegister (base : Register)
  | access (kind : Access) (register base : Register) (offset : BitVec 6)
  | loadAddress (target : Register) (offset : BitVec 9)
  | shift (kind : Shift) (target source : Register) (amount : BitVec 4)
  | trap (vector : BitVec 8)
  | returnFromInterrupt
deriving DecidableEq, Repr

def Operator.opcode : Operator → BitVec 4
  | .add => 0x1
  | .and => 0x5
  | .xor => 0x9

def Access.opcode : Access → BitVec 4
  | .loadByte => 0x2
  | .storeByte => 0x3
  | .loadWord => 0x6
  | .storeWord => 0x7

def Shift.code : Shift → BitVec 2
  | .left => 0b00
  | .rightLogical => 0b01
  | .rightArithmetic => 0b11

namespace Instruction

/-- The bits of an instruction, the highest first. -/
def bits : Instruction → BitVec 16
  | .operateRegister op dr sr1 sr2 => op.opcode ++ dr ++ sr1 ++ 0#3 ++ sr2
  | .operateImmediate op dr sr1 imm => op.opcode ++ dr ++ sr1 ++ 1#1 ++ imm
  | .branch flags offset => 0x0#4 ++ flags ++ offset
  | .jump base => 0xC#4 ++ 0#3 ++ base ++ 0#6
  | .call offset => 0x4#4 ++ 1#1 ++ offset
  | .callRegister base => 0x4#4 ++ 0#3 ++ base ++ 0#6
  | .access kind r base offset => kind.opcode ++ r ++ base ++ offset
  | .loadAddress dr offset => 0xE#4 ++ dr ++ offset
  | .shift kind dr sr amount => 0xD#4 ++ dr ++ sr ++ kind.code ++ amount
  | .trap vector => 0xF#4 ++ 0#4 ++ vector
  | .returnFromInterrupt => 0x8000#16

/-- A field at the lower end of a word. -/
def field {n : Nat} (value : BitVec n) : UInt16 := .ofBitVec (value.setWidth 16)

/-- An opcode above the fields of its operands; what the fields have in its place is cut off. -/
def pack (opcode : BitVec 4) (fields : UInt16) : UInt16 :=
  (field opcode <<< 12) ||| (fields &&& 0x0fff)

/-- The word of an instruction, made by shifting its fields to their places. -/
def word : Instruction → UInt16
  | .operateRegister op dr sr1 sr2 =>
    pack op.opcode ((field dr <<< 9) ||| (field sr1 <<< 6)) ||| field sr2
  | .operateImmediate op dr sr1 imm =>
    pack op.opcode ((field dr <<< 9) ||| (field sr1 <<< 6)) ||| ((field 1#1 <<< 5) ||| field imm)
  | .branch flags offset => pack 0x0 ((field flags <<< 9) ||| field offset)
  | .jump base => pack 0xC (field base <<< 6)
  | .call offset => pack 0x4 ((field 1#1 <<< 11) ||| field offset)
  | .callRegister base => pack 0x4 (field base <<< 6)
  | .access kind r base offset =>
    pack kind.opcode ((field r <<< 9) ||| (field base <<< 6) ||| field offset)
  | .loadAddress dr offset => pack 0xE ((field dr <<< 9) ||| field offset)
  | .shift kind dr sr amount =>
    pack 0xD ((field dr <<< 9) ||| (field sr <<< 6) ||| (field kind.code <<< 4) ||| field amount)
  | .trap vector => pack 0xF (field vector)
  | .returnFromInterrupt => 0x8000

/-- The word that flips the bits of a register: an exclusive or with ones. -/
def complementWord (target source : Register) : UInt16 :=
  pack 0x9 ((field target <<< 9) ||| (field source <<< 6) ||| (field 1#1 <<< 5) ||| 0x1f)

/-- The instruction of three operands in a word, if unused bits are zero. -/
def decodeOperate? (op : Operator) (w : BitVec 16) : Option Instruction :=
  let dr := w.extractLsb' 9 3
  let sr1 := w.extractLsb' 6 3
  if w.getLsbD 5 then some (.operateImmediate op dr sr1 (w.extractLsb' 0 5))
  else if w.extractLsb' 3 3 = 0 then some (.operateRegister op dr sr1 (w.extractLsb' 0 3))
  else none

def decodeAccess (kind : Access) (w : BitVec 16) : Instruction :=
  .access kind (w.extractLsb' 9 3) (w.extractLsb' 6 3) (w.extractLsb' 0 6)

/-- The register of a word that holds nothing else. -/
def decodeBase? (make : Register → Instruction) (w : BitVec 16) : Option Instruction :=
  if w.extractLsb' 9 3 = 0 ∧ w.extractLsb' 0 6 = 0 then some (make (w.extractLsb' 6 3)) else none

def decodeShift? (w : BitVec 16) : Option Instruction :=
  let shiftBy (kind : Shift) : Instruction :=
    .shift kind (w.extractLsb' 9 3) (w.extractLsb' 6 3) (w.extractLsb' 0 4)
  match (w.extractLsb' 4 2).toNat with
  | 0 => some (shiftBy .left)
  | 1 => some (shiftBy .rightLogical)
  | 3 => some (shiftBy .rightArithmetic)
  | _ => none

/-- The instruction that a word holds. -/
def decode? (w : BitVec 16) : Option Instruction :=
  match (w.extractLsb' 12 4).toNat with
  | 0x0 => some (.branch (w.extractLsb' 9 3) (w.extractLsb' 0 9))
  | 0x1 => decodeOperate? .add w
  | 0x2 => some (decodeAccess .loadByte w)
  | 0x3 => some (decodeAccess .storeByte w)
  | 0x4 =>
    if w.getLsbD 11 then some (.call (w.extractLsb' 0 11)) else decodeBase? .callRegister w
  | 0x5 => decodeOperate? .and w
  | 0x6 => some (decodeAccess .loadWord w)
  | 0x7 => some (decodeAccess .storeWord w)
  | 0x8 => if w = 0x8000#16 then some .returnFromInterrupt else none
  | 0x9 => decodeOperate? .xor w
  | 0xC => decodeBase? .jump w
  | 0xD => decodeShift? w
  | 0xE => some (.loadAddress (w.extractLsb' 9 3) (w.extractLsb' 0 9))
  | 0xF => if w.extractLsb' 8 4 = 0 then some (.trap (w.extractLsb' 0 8)) else none
  | _ => none

end Instruction

end LittleComputer
