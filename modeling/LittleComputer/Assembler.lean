import LittleComputer.Encoding
import LittleComputer.Layout.Survey

/-!
# Assembling

An assembler reads a source, takes it apart into statements, surveys them and encodes them. Symbols
can be defined before it starts. A verbose assembler logs every statement that a pass reaches.
-/

namespace LittleComputer

structure Assembler where
  verbose : Bool := false
  /-- Whether labels may stand without a colon. -/
  implicitLabels : Bool := false
  predefined : SymbolTable := .empty

/-- What a task of the assembler gives, and what it logs. -/
structure Logged (α : Type) where
  result : α
  log : Text

namespace Assembler

/-- Defines a symbol before assembly; a name that was predefined gets the new address. -/
def predefine (a : Assembler) (name : Text) (address : UInt16) : Assembler :=
  { a with predefined := a.predefined.assign name address }

/-- The log of a walk, if it is wanted. -/
def logOf {σ : Type} (a : Assembler) (pass : String) (locator : σ → Locator) (w : Walk σ) :
    Text :=
  if a.verbose then w.log pass locator else []

variable [Interpreter]

/-- The symbols of statements, also those found before a fault. -/
def survey (a : Assembler) (statements : List Statement) : Logged (SymbolTable × Option Error) :=
  match SymbolTable.empty.defineAll a.predefined.toList with
  | .error fault => ⟨(.empty, some (.plain fault)), []⟩
  | .ok symbols =>
    let w := Survey.walk symbols statements
    ⟨(w.final.symbols, w.error), a.logOf "pass1" Survey.locator w⟩

/-- The program of statements whose symbols are known. -/
def encode (a : Assembler) (statements : List Statement) (symbols : SymbolTable) :
    Logged (Except Error Program) :=
  let w := Encoding.walk symbols statements
  ⟨Encoding.program symbols w, a.logOf "pass2" Encoding.locator w⟩

/-- The program of statements. -/
def assembleStatements (a : Assembler) (statements : List Statement) :
    Logged (Except Error Program) :=
  match a.survey statements with
  | ⟨(_, some error), log⟩ => ⟨.error error, log⟩
  | ⟨(symbols, none), log⟩ =>
    let encoded := a.encode statements symbols
    ⟨encoded.result, log ++ encoded.log⟩

/-- The program of source lines. -/
def assembleLines (a : Assembler) (lines : List SourceLine) : Logged (Except Error Program) :=
  match Listing.ofLines a.implicitLabels lines with
  | ⟨_, some error⟩ => ⟨.error error, []⟩
  | ⟨statements, none⟩ => a.assembleStatements statements

/-- The program of a source. -/
def assemble (a : Assembler) (source : Input) : Logged (Except Error Program) :=
  let reading := source.read
  match reading.fault with
  | some fault => ⟨.error (.plain fault), []⟩
  | none => a.assembleLines reading.sourceLines

end Assembler

/-- Assembles a text with nothing predefined. -/
def assembleText [Interpreter] (source : Text) : Except Error Program :=
  (Assembler.assemble {} ⟨source, false⟩).result

end LittleComputer
