import LittleComputer.Layout.Walk

/-!
# The first pass

A survey goes through the statements to give each label the address of the statement it stands
before. Operands of `.ORIG` and `.BLKW` see the symbols found so far; the label of a statement is
known to its own `.BLKW`, while the label of an `.ORIG` gets the address that the `.ORIG` sets.
-/

namespace LittleComputer

structure Survey where
  locator : Locator
  symbols : SymbolTable

namespace Survey

def start (symbols : SymbolTable) : Survey := ⟨.start, symbols⟩

/-- What the operands of a statement see. -/
def scope (v : Survey) (s : Statement) : Scope :=
  ⟨v.symbols, v.locator.address, s.line.number⟩

variable [Interpreter]

/-- Moves to the origin that the statement sets and defines its label. -/
def mark (v : Survey) (s : Statement) : Except Fault Survey := do
  let loc ← (v.scope s).relocate v.locator s
  match s.label with
  | none => .ok { v with locator := loc }
  | some name =>
    let (address, loc) ← loc.here
    let symbols ← v.symbols.define name address
    .ok ⟨loc, symbols⟩

/-- Goes on behind the statement. -/
def pass (v : Survey) (s : Statement) : Except Fault Survey := do
  let size ← (v.scope s).size s
  let loc ← v.locator.advance size
  .ok { v with locator := loc }

/-- A statement that can be marked but not passed leaves its label in the table. -/
def step (v : Survey) (s : Statement) : Survey × Option Fault :=
  match v.mark s with
  | .error fault => (v, some fault)
  | .ok marked =>
    match marked.pass s with
    | .error fault => (marked, some fault)
    | .ok next => (next, none)

/-- Surveys statements on top of the symbols that are there already. -/
def walk (symbols : SymbolTable) (statements : List Statement) : Walk Survey :=
  Walk.through step (start symbols) statements

end Survey

end LittleComputer
