import LittleComputer.Proofs.Tiling

/-!
# Cells by their addresses

The cell at an address is found by halving, which is right only for cells that ascend. Cells that
tile memory do, and then an address has a cell exactly if it is even and lies between the two ends
of the program; the odd addresses between two cells have none.
-/

namespace LittleComputer

namespace Program

variable {cells : Array Cell} {address : UInt16} {low high : Nat}

/-- Every cell lies behind the ones before it. -/
def Ascending (cells : Array Cell) : Prop :=
  ∀ (i j : Nat) (_ : i < j) (_ : j < cells.size), cells[i].address < cells[j].address

/-- What a search knows of the cells on both sides of those that are left: the ones before `low` lie
below the address, and the ones from `high` on do not. -/
structure Narrowed (cells : Array Cell) (address : UInt16) (low high : Nat) : Prop where
  ordered : low ≤ high
  below : ∀ (i : Nat) (_ : i < cells.size), i < low → cells[i].address < address
  beyond : ∀ (i : Nat) (_ : i < cells.size), high ≤ i → address ≤ cells[i].address

theorem narrowed_start (cells : Array Cell) (address : UInt16) :
    Narrowed cells address 0 cells.size where
  ordered := Nat.zero_le _
  below := fun _ _ hi => absurd hi (Nat.not_lt_zero _)
  beyond := fun _ hi hsize => absurd hi (Nat.not_lt.mpr hsize)

/-- A cell below the address leaves those behind it. -/
theorem Narrowed.right {middle : Nat} (h : Narrowed cells address low high)
    (hcells : Ascending cells)
    (hmiddle : middle < high) (hsize : middle < cells.size)
    (hbelow : cells[middle].address < address) :
    Narrowed cells address (middle + 1) high where
  ordered := hmiddle
  below := by
    intro i hi hlow
    by_cases hlast : i = middle
    · subst hlast
      exact hbelow
    · exact UInt16.lt_trans (hcells i middle (by omega) hsize) hbelow
  beyond := h.beyond

/-- A cell that is not below the address leaves those before it. -/
theorem Narrowed.left {middle : Nat} (h : Narrowed cells address low high)
    (hcells : Ascending cells)
    (hmiddle : low ≤ middle) (hsize : middle < cells.size)
    (hbeyond : address ≤ cells[middle].address) :
    Narrowed cells address low middle where
  ordered := hmiddle
  below := h.below
  beyond := by
    intro i hi hhigh
    by_cases hfirst : i = middle
    · subst hfirst
      exact hbeyond
    · exact UInt16.le_trans hbeyond (UInt16.le_of_lt (hcells middle i (by omega) hi))

/-- The search ends where the cells below the address do. -/
theorem narrowed_countBelow (hcells : Ascending cells) (hhigh : high ≤ cells.size)
    (h : Narrowed cells address low high) :
    Narrowed cells address (countBelow cells address low high hhigh)
      (countBelow cells address low high hhigh) := by
  fun_induction countBelow cells address low high hhigh with
  | case1 low high hhigh hlow hbelow ih =>
    exact ih (h.right hcells (by omega) (by omega) hbelow)
  | case2 low high hhigh hlow hbeyond ih =>
    exact ih (h.left hcells (by omega) (by omega) (UInt16.not_lt.mp hbeyond))
  | case3 low high hhigh hdone =>
    obtain rfl : low = high := Nat.le_antisymm h.ordered (Nat.not_lt.mp hdone)
    exact h

/-- Among cells that ascend, the search stops at the one with the address if there is one. -/
theorem countBelow_eq (hcells : Ascending cells) {i : Nat} (hi : i < cells.size)
    (haddress : cells[i].address = address) :
    countBelow cells address 0 cells.size (Nat.le_refl _) = i := by
  have hstop := narrowed_countBelow hcells (Nat.le_refl _) (narrowed_start cells address)
  have hat : ¬ i < countBelow cells address 0 cells.size (Nat.le_refl _) := by
    intro hlt
    have hbelow := hstop.below i hi hlt
    rw [haddress] at hbelow
    exact UInt16.lt_irrefl _ hbelow
  have hbefore : ¬ countBelow cells address 0 cells.size (Nat.le_refl _) < i := by
    intro hlt
    have hbeyond := hstop.beyond _ (Nat.lt_trans hlt hi) (Nat.le_refl _)
    have hascend := hcells _ i hlt hi
    rw [haddress] at hascend
    exact UInt16.lt_irrefl _ (UInt16.lt_of_le_of_lt hbeyond hascend)
  omega

theorem cellAt?_eq_some {p : Program} (hcells : Ascending p.cells.toArray) {cell : Cell} :
    p.cellAt? address = some cell ↔ cell ∈ p.cells ∧ cell.address = address := by
  have hread : p.cellAt? address = some cell ↔
      p.cells[countBelow p.cells.toArray address 0 p.cells.toArray.size (Nat.le_refl _)]? =
        some cell ∧
        cell.address = address := by
    show Option.filter _ _ = _ ↔ _
    rw [Option.filter_eq_some_iff, List.getElem?_toArray, beq_iff_eq]
  rw [hread]
  constructor
  · rintro ⟨hcell, haddress⟩
    exact ⟨List.mem_of_getElem? hcell, haddress⟩
  · rintro ⟨hmem, haddress⟩
    obtain ⟨i, hi, rfl⟩ := List.getElem_of_mem hmem
    rw [countBelow_eq hcells (i := i) (by simpa using hi) (by simpa using haddress)]
    exact ⟨List.getElem?_eq_getElem hi, haddress⟩

/-- The cells lie one behind the other from the origin on, two bytes each. -/
def Tiles (p : Program) : Prop :=
  ∀ (i : Nat) (cell : Cell), p.cells[i]? = some cell →
    cell.address.toNat = p.origin.toNat + 2 * i

theorem Tiles.ascending {p : Program} (h : p.Tiles) : Ascending p.cells.toArray := by
  intro i j hij hj
  have hlength : j < p.cells.length := by simpa using hj
  have hcell (k : Nat) (hk : k < p.cells.length) : p.cells[k].address.toNat =
      p.origin.toNat + 2 * k :=
    h k _ (List.getElem?_eq_getElem hk)
  have hbefore := hcell i (by omega)
  have hbehind := hcell j hlength
  simp only [List.getElem_toArray]
  apply UInt16.lt_iff_toNat_lt.mpr
  omega

/-- Where cells tile memory, the number of a cell and its address tell each other. -/
theorem Tiles.cellAt?_eq_some {p : Program} (h : p.Tiles) {cell : Cell} :
    p.cellAt? address = some cell ↔
      ∃ i, p.cells[i]? = some cell ∧ address.toNat = p.origin.toNat + 2 * i := by
  rw [Program.cellAt?_eq_some h.ascending, List.mem_iff_getElem?]
  constructor
  · rintro ⟨⟨i, hi⟩, rfl⟩
    exact ⟨i, hi, h i cell hi⟩
  · rintro ⟨i, hi, haddress⟩
    refine ⟨⟨i, hi⟩, UInt16.toNat_inj.mp ?_⟩
    rw [h i cell hi, haddress]

end Program

/-- Cells are found exactly where they are. In a program that was encoded, whatever from, there is a
cell at an address exactly if the address is even and lies from the origin on and before the end of
the last word, and then it is the cell with the number that the address has when words are counted
from the origin. -/
theorem cells_are_found_by_address [Interpreter] (a : Assembler) (statements : List Statement)
    (symbols : SymbolTable)
    (prog : Program) (h : (a.encode statements symbols).result = .ok prog) (address : UInt16) :
    ((∃ cell, prog.cellAt? address = some cell) ↔
      address.toNat % 2 = 0 ∧ prog.origin.toNat ≤ address.toNat ∧
        address.toNat < prog.origin.toNat + 2 * prog.size) ∧
    ∀ cell, prog.cellAt? address = some cell →
      prog.cells[(address.toNat - prog.origin.toNat) / 2]? = some cell := by
  obtain ⟨e, ht, horigin, hcells⟩ := Assembler.tiled_of_encode h
  have heven : prog.origin.toNat % 2 = 0 := by
    rw [horigin]
    exact ht.even
  have htiles : prog.Tiles := by
    unfold Program.Tiles
    rw [hcells, horigin]
    exact ht.address_of_cell
  have hsize : prog.size = prog.cells.length := rfl
  refine ⟨⟨?_, ?_⟩, fun cell hcell => ?_⟩
  · rintro ⟨cell, hcell⟩
    obtain ⟨i, hi, haddress⟩ := htiles.cellAt?_eq_some.mp hcell
    have hlength : i < prog.cells.length := (List.getElem?_eq_some_iff.mp hi).1
    omega
  · rintro ⟨hparity, hfirst, hlast⟩
    have hindex : (address.toNat - prog.origin.toNat) / 2 < prog.cells.length := by omega
    exact ⟨_, htiles.cellAt?_eq_some.mpr ⟨_, List.getElem?_eq_getElem hindex, by omega⟩⟩
  · obtain ⟨i, hi, haddress⟩ := htiles.cellAt?_eq_some.mp hcell
    have hindex : (address.toNat - prog.origin.toNat) / 2 = i := by omega
    rw [hindex]
    exact hi

/-- Statements whose last word is the last one of the address space. -/
def lastStatements : List Statement :=
  (Listing.ofLines false
    (SourceLine.ofTexts [".ORIG xFFFA", ".FILL 1", ".FILL 2", ".FILL 3"])).statements

/-- The last word of the address space is found, and neither the odd address before it nor the word
before the first one is. -/
theorem cells_are_found_by_address_last :
    ∃ prog, (Assembler.encode {} lastStatements .empty).result = .ok prog ∧
      (∃ cell, prog.cellAt? 0xFFFE = some cell ∧ cell.word = 3) ∧
      prog.cellAt? 0xFFFD = none ∧ prog.cellAt? 0xFFF8 = none := by
  have hok : ∃ prog, (Assembler.encode {} lastStatements .empty).result = .ok prog ∧
      prog.origin = 0xFFFA ∧ prog.words = [1, 2, 3] :=
        Outcome.exists_ok_of_any (by decide +kernel)
  obtain ⟨prog, hprog, horigin, hwords⟩ := hok
  have hsize : prog.size = 3 := by
    have hlength := congrArg List.length hwords
    simpa [Program.words, Program.size] using hlength
  have hnone (address : UInt16)
      (hout : ¬(address.toNat % 2 = 0 ∧ prog.origin.toNat ≤ address.toNat ∧
      address.toNat < prog.origin.toNat + 2 * prog.size)) : prog.cellAt? address = none := by
    apply Option.eq_none_iff_forall_not_mem.mpr
    intro cell hcell
    exact hout ((cells_are_found_by_address {} _ _ prog hprog address).1.mp ⟨cell, hcell⟩)
  refine ⟨prog, hprog, ?_, hnone _ ?_, hnone _ ?_⟩
  · obtain ⟨hfound, hat⟩ := cells_are_found_by_address {} _ _ prog hprog 0xFFFE
    obtain ⟨cell, hcell⟩ := hfound.mpr (by rw [horigin, hsize]; decide)
    refine ⟨cell, hcell, ?_⟩
    have hlast : prog.words[2]? = some cell.word := by
      have hcells := hat cell hcell
      rw [horigin] at hcells
      unfold Program.words
      rw [List.getElem?_map]
      exact congrArg (Option.map Cell.word) hcells
    rw [hwords] at hlast
    exact (Option.some.inj hlast).symm
  · rw [horigin, hsize]
    decide
  · rw [horigin, hsize]
    decide

end LittleComputer
