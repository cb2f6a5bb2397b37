import LittleComputer.Message
import LittleComputer.Program

/-!
# Reports

What is said about a program that has been assembled: its size, its origin and its symbols in the
order of their names.
-/

namespace LittleComputer.Report

/-- Width of the column of names. -/
def nameWidth : Nat := 20

/-- A name filled up with blanks; longer names stand as they are. -/
def column (name : String) : List Char :=
  name.toList ++ List.replicate (nameWidth - name.length) ' '

def symbolLine (name : String) (address : UInt16) : Text :=
  ("  " : Text) ++ (column name).map .char ++ (" = " : Text) ++ hexWordText address

/-- The lines of a report. -/
def lines (p : Program) : List Text :=
  let symbols := p.symbols.toList
  [Message.ofTemplate "Successfully assembled %v words" [.int p.size],
   Message.ofTemplate "Origin: %v" [.text (hexWordText p.origin)],
   Message.ofTemplate "Labels found: %v" [.int symbols.length]] ++
  if symbols.isEmpty then []
  else ("Symbol table:" : Text) :: symbols.map fun (name, address) => symbolLine name address

def text (p : Program) : Text := (lines p).flatMap (· ++ ("\n" : Text))

end LittleComputer.Report
