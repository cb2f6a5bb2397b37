import LittleComputer.Text.Numeral
import LittleComputer.Text.Upper

/-!
# Mnemonics

The keywords of the language: the instructions of the machine with their aliases, and the
directives, which start with a dot. Keywords are recognised without regard to case.

An `Operation` is what a statement asks for. Besides the mnemonics there are statements that are
only a label, and statements built by hand may carry a number that belongs to no mnemonic.
-/

namespace LittleComputer

inductive Mnemonic where
  | add | and | xor | not
  | br | brn | brz | brp | brnz | brnp | brzp | brnzp
  | nop | jmp | ret | jsr | jsrr
  | ldb | ldw | stb | stw | lea
  | lshf | rshfl | rshfa
  | trap | halt | rti
  | orig | fill | blkw | stringz | finish
deriving DecidableEq, Repr, Inhabited

namespace Mnemonic

/-- The keyword, in upper case. -/
def name : Mnemonic → String
  | .add => "ADD" | .and => "AND" | .xor => "XOR" | .not => "NOT"
  | .br => "BR" | .brn => "BRN" | .brz => "BRZ" | .brp => "BRP"
  | .brnz => "BRNZ" | .brnp => "BRNP" | .brzp => "BRZP" | .brnzp => "BRNZP"
  | .nop => "NOP" | .jmp => "JMP" | .ret => "RET" | .jsr => "JSR" | .jsrr => "JSRR"
  | .ldb => "LDB" | .ldw => "LDW" | .stb => "STB" | .stw => "STW" | .lea => "LEA"
  | .lshf => "LSHF" | .rshfl => "RSHFL" | .rshfa => "RSHFA"
  | .trap => "TRAP" | .halt => "HALT" | .rti => "RTI"
  | .orig => ".ORIG" | .fill => ".FILL" | .blkw => ".BLKW" | .stringz => ".STRINGZ"
  | .finish => ".END"

/-- All mnemonics, in the order of their numbers. -/
def all : List Mnemonic :=
  [.add, .and, .xor, .not, .br, .brn, .brz, .brp, .brnz, .brnp, .brzp, .brnzp, .nop, .jmp, .ret,
   .jsr, .jsrr, .ldb, .ldw, .stb, .stw, .lea, .lshf, .rshfl, .rshfa, .trap, .halt, .rti, .orig,
   .fill, .blkw, .stringz, .finish]

/-- Mnemonics are numbered from 1. -/
def number (m : Mnemonic) : Nat := all.idxOf m + 1

/-- The mnemonic that a word names, in any case. -/
def ofWord? (word : Text) : Option Mnemonic :=
  let key := word.upper
  all.find? (·.name == key)

def isDirective : Mnemonic → Bool
  | .orig | .fill | .blkw | .stringz | .finish => true
  | _ => false

end Mnemonic

inductive Operation where
  /-- A statement that is only a label. -/
  | empty
  | keyword (m : Mnemonic)
  /-- A number that belongs to no mnemonic. -/
  | unlisted (number : Int)
deriving DecidableEq, Repr, Inhabited

namespace Operation

def ofNumber (n : Int) : Operation :=
  if n = 0 then .empty
  else if n < 0 then .unlisted n
  else
    match Mnemonic.all[n.toNat - 1]? with
    | some m => .keyword m
    | none => .unlisted n

def name : Operation → String
  | .empty => "-"
  | .keyword m => m.name
  | .unlisted n => "Mnemonic(" ++ String.ofList (decimal n) ++ ")"

/-- Whether the operation is an instruction or a directive. -/
def isListed : Operation → Bool
  | .keyword _ => true
  | _ => false

def isDirective : Operation → Bool
  | .keyword m => m.isDirective
  | _ => false

end Operation

end LittleComputer
