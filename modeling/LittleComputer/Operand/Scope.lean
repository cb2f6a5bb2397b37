import LittleComputer.Operand.Field
import LittleComputer.Operand.Interpreter
import LittleComputer.Source.Label
import LittleComputer.Symbols

/-!
# Operands in their scope

What an operand means depends on where it stands: on the symbols known there, on the address of its
statement and on the number of its line. Symbols come before literals where both are possible, so a
label `X10` hides the number `x10`.
-/

namespace LittleComputer

structure Scope where
  symbols : SymbolTable
  /-- Address of the statement. -/
  address : Int
  /-- Number of the source line. -/
  line : Int

namespace Scope

/-- The names an expression can use: the symbols as they are written in the table, then `PC` and
`LINENO` where no symbol has that name. -/
def name? (s : Scope) (name : String) : Option Int :=
  match s.symbols.addresses[name]? with
  | some a => some a.toNat
  | none =>
    if name = "PC" then some s.address
    else if name = "LINENO" then some s.line
    else none

variable [Interpreter]

/-- The value of an expression. -/
def evaluate (s : Scope) (body : Text) : Except Fault Int :=
  match Interpreter.execute s.name? (resultText body) with
  | .crash reason => .error (.crash reason)
  | result =>
    match result.number? with
    | some v => .ok v
    | none => .error (.invalidExpression body)

/-- The value of a literal or an expression. -/
def number (s : Scope) (word : Text) : Except Fault Int :=
  match word.expression? with
  | some body => s.evaluate body
  | none =>
    match word.literal? with
    | some v => .ok v
    | none => .error (.invalidImmediate word)

/-- A number in a field. -/
def immediate (s : Scope) (f : Field) (word : Text) : Except Fault (BitVec f.bits) :=
  match s.number word with
  | .ok v => f.pack v
  | .error fault => .error fault

/-- A number where a symbol could stand as well: an identifier that is no number is a label that was
not defined. -/
def immediateOrLabel (s : Scope) (f : Field) (word : Text) : Except Fault (BitVec f.bits) :=
  match s.immediate f word with
  | .error (.invalidImmediate w) =>
    if word.isIdentifier then .error (.undefinedLabel word.upper) else .error (.invalidImmediate w)
  | result => result

/-- Words from the end of the statement to an address, rounded down. -/
def distance (s : Scope) (target : UInt16) : Int := ((target.toNat : Int) - (s.address + 2)) / 2

/-- The distance that a fault tells. It is counted in 64 bits, which can be seen only where the
statement is far from all addresses. -/
def distanceTold (s : Scope) (target : UInt16) : Int :=
  Int.bmod ((target.toNat : Int) - (s.address + 2)) 0x10000000000000000 / 2

/-- The offset to a symbol, or a number taken as it is. -/
def offset (s : Scope) (bits : Nat) (word : Text) : Except Fault (BitVec bits) :=
  match s.symbols.lookup? word with
  | some target =>
    if (Field.signed bits).Accepts (s.distance target) then
      .ok (BitVec.ofInt bits (s.distance target))
    else .error (.offsetRange (s.distanceTold target) bits)
  | none => s.immediateOrLabel (Field.signed bits) word

/-- The address of a symbol, or a word. -/
def word (s : Scope) (word : Text) : Except Fault UInt16 :=
  match s.symbols.lookup? word with
  | some a => .ok a
  | none => UInt16.ofBitVec <$> s.immediateOrLabel Field.word word

end Scope

end LittleComputer
