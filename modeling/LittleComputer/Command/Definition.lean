import LittleComputer.Assembler
import LittleComputer.Text.Quoted

/-!
# Definitions on the command line

`NAME=ADDR` predefines a symbol. The address is hexadecimal, with or without one of the marks `x`
and `0x`.
-/

namespace LittleComputer.Command

inductive DefinitionFault where
  /-- No equals sign, or no name before it. -/
  | malformed (text : Text)
  /-- The address holds something that is no digit, or nothing. -/
  | invalidAddress (digits : Text)
  | addressRange (digits : Text)
deriving DecidableEq, Repr

def DefinitionFault.message : DefinitionFault → Text
  | .malformed t => t.quoted ++ (": expected NAME=ADDR" : Text)
  | .invalidAddress d =>
    ("strconv.ParseUint: parsing " : Text) ++ d.quoted ++ (": invalid syntax" : Text)
  | .addressRange d =>
    ("strconv.ParseUint: parsing " : Text) ++ d.quoted ++ (": value out of range" : Text)

/-- Text before and behind the first equals sign. -/
def splitEquals? (t : Text) : Option (Text × Text) :=
  match t.dropWhile fun g => !g.is '=' with
  | _ :: rest => some (t.takeWhile fun g => !g.is '=', rest)
  | [] => none

/-- Takes a mark off the front if it is there. -/
def dropMark (mark t : Text) : Text := if mark.isPrefixOf t then t.drop mark.length else t

/-- Takes an `x` off the front, then `0x`. -/
def dropMarks (t : Text) : Text := dropMark "0x" (dropMark "x" t)

/-- Reads the digits of an address from the left. What comes first counts, a wrong digit or a number
that is too big. -/
def addressFrom (digits : Text) : Text → (value : Nat) → Except DefinitionFault UInt16
  | [], value => .ok (UInt16.ofNat value)
  | g :: rest, value =>
    match g.digit? 16 with
    | none => .error (.invalidAddress digits)
    | some d =>
      if value * 16 + d < 65536 then addressFrom digits rest (value * 16 + d)
      else .error (.addressRange digits)

def address (digits : Text) : Except DefinitionFault UInt16 :=
  if digits.isEmpty then .error (.invalidAddress digits) else addressFrom digits digits 0

/-- Name and address of a definition. -/
def definition (t : Text) : Except DefinitionFault (Text × UInt16) :=
  match splitEquals? t with
  | none => .error (.malformed t)
  | some ([], _) => .error (.malformed t)
  | some (name, value) => do return (name, ← address (dropMarks value))

/-- Predefines the symbol of a definition. The assembler is the one behind it, also if there is a
fault. -/
def define (a : Assembler) (t : Text) : Assembler × Option DefinitionFault :=
  match definition t with
  | .ok (name, value) => (a.predefine name value, none)
  | .error fault => (a, some fault)

end LittleComputer.Command
