import LittleComputer.Symbols

/-!
# Programs

An assembled program: its origin, its words in the order of their addresses, each with the line it
comes from, and its symbols.
-/

namespace LittleComputer

/-- A word of a program at its address, with the line it comes from. -/
structure Cell where
  address : UInt16
  word : UInt16
  line : SourceLine
deriving DecidableEq, Repr

structure Program where
  origin : UInt16
  cells : List Cell
  symbols : SymbolTable

namespace Program

/-- Number of words. -/
def size (p : Program) : Nat := p.cells.length

def words (p : Program) : List UInt16 := p.cells.map (·.word)

/-- The number of cells below an address, which is looked for between `low` and `high`. The cells
are taken to stand in the order of their addresses, so that the one in the middle tells which half
to go on with. -/
def countBelow (cells : Array Cell) (address : UInt16) (low high : Nat)
    (hhigh : high ≤ cells.size) : Nat :=
  if h : low < high then
    if cells[(low + high) / 2].address < address then
      countBelow cells address ((low + high) / 2 + 1) high hhigh
    else countBelow cells address low ((low + high) / 2) (by omega)
  else low
termination_by high - low

/-- The cell at an address, found by halving. -/
def cellAt? (p : Program) (address : UInt16) : Option Cell :=
  let cells := p.cells.toArray
  cells[countBelow cells address 0 cells.size (Nat.le_refl _)]?.filter (·.address == address)

end Program

end LittleComputer
