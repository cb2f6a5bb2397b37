import LittleComputer.Expression.Evaluation
import LittleComputer.Proofs.Step

/-!
# The image tiles memory

The cells of a program lie one behind the other from its origin on, two bytes each, below the end of
the address space. The origin can only move while there is no cell yet, which is what keeps the
invariant `Encoding.Tiled` through several `.ORIG`. The cells of a statement are `Encoding.emitted`,
and a program is what its statements emitted, in their order.
-/

namespace LittleComputer

open Outcome

theorem even_defaultOrigin : defaultOrigin.toNat % wordSize = 0 := by decide

theorem Cell.length_place (address : Nat) (line : SourceLine) (words : List UInt16) :
    (Cell.place address line words).length = words.length := by
  simp [Cell.place]

theorem Cell.getElem?_place (address : Nat) (line : SourceLine) (words : List UInt16) (i : Nat) :
    (Cell.place address line words)[i]? =
      words[i]?.map fun word => ⟨UInt16.ofNat (address + wordSize * i), word, line⟩ := by
  unfold Cell.place
  rw [List.getElem?_map, List.getElem?_zipIdx, Option.map_map]
  simp only [Function.comp_def, Nat.zero_add]

theorem Cell.words_place (address : Nat) (line : SourceLine) (words : List UInt16) :
    (Cell.place address line words).map (·.word) = words := by
  apply List.ext_getElem?
  intro i
  rw [List.getElem?_map, getElem?_place, Option.map_map]
  exact Option.map_id'

theorem Cell.line_of_place {address : Nat} {line : SourceLine} {words : List UInt16} {cell : Cell}
    (h : cell ∈ Cell.place address line words) : cell.line = line := by
  obtain ⟨i, hi⟩ := List.getElem?_of_mem h
  rw [getElem?_place] at hi
  obtain ⟨word, -, rfl⟩ := Option.map_eq_some_iff.mp hi
  rfl

namespace Encoding

/-- The cells so far fill the space from an even origin to the address reached. -/
structure Tiled (e : Encoding) : Prop where
  even : e.locator.origin.toNat % wordSize = 0
  reached : e.locator.address = e.locator.origin.toNat + wordSize * e.cells.length
  limit : e.locator.address ≤ addressLimit
  unplaced : e.locator.placed = false → e.cells = []
  address_of_cell : ∀ (i : Nat) (cell : Cell), e.cells.reverse[i]? = some cell →
    cell.address.toNat = e.locator.origin.toNat + wordSize * i

variable {e m e' : Encoding} {symbols : SymbolTable} {s : Statement}

theorem tiled_start : Tiled start := by
  refine ⟨even_defaultOrigin, rfl, by decide, fun _ => rfl, ?_⟩
  intro i cell hi
  simp [start] at hi

variable [Interpreter]

/-- An origin moves only while there are no cells, and a label moves nothing. -/
theorem tiled_mark (ht : Tiled e) (h : e.mark symbols s = .ok m) : Tiled m := by
  obtain ⟨harrive, hcells⟩ := mark_eq_ok.mp h
  obtain ⟨mid, hmid, hlabel⟩ := Scope.arrive_eq_ok.mp harrive
  have hrelocated : Tiled ⟨mid, e.cells⟩ := by
    obtain ⟨-, rfl⟩ | ⟨-, origin, -, horigin⟩ := Scope.relocate_eq_ok.mp hmid
    · exact ht
    · obtain ⟨heven, ⟨-, -, rfl⟩ | ⟨hunplaced, rfl⟩⟩ :=
        Locator.setOrigin_eq_ok.mp horigin
      · exact ht
      · have hnil := ht.unplaced hunplaced
        refine ⟨heven, by simp [hnil], ?_, fun _ => hnil, by simp [hnil]⟩
        exact Nat.le_of_lt origin.toNat_lt
  obtain ⟨mloc, mcells⟩ := m
  simp only at hcells hlabel
  subst hcells
  obtain ⟨-, rfl⟩ | ⟨-, -, rfl⟩ := hlabel
  · exact hrelocated
  · exact ⟨hrelocated.even, hrelocated.reached, hrelocated.limit, nofun,
      hrelocated.address_of_cell⟩

theorem tiled_emit (ht : Tiled e) (h : e.emit symbols s = .ok e') : Tiled e' := by
  obtain ⟨words, -, hadvance, hcells⟩ := emit_eq_ok.mp h
  obtain ⟨loc, cells⟩ := e'
  simp only at hadvance hcells
  subst hcells
  obtain ⟨hsize, rfl⟩ | ⟨hsize, hlimit, rfl⟩ := Locator.advance_eq_ok.mp hadvance
  · have hnil : words = [] := by
      apply List.eq_nil_of_length_eq_zero
      simp only [wordSize] at hsize
      omega
    subst hnil
    exact ht
  · have hlength : ((Cell.place e.locator.address s.line words).reverse ++ e.cells).length =
        e.cells.length + words.length := by
      rw [List.length_append, List.length_reverse, Cell.length_place, Nat.add_comm]
    refine ⟨ht.even, ?_, hlimit, nofun, ?_⟩
    · rw [hlength, Nat.mul_add, ← Nat.add_assoc, ← ht.reached]
    · intro i cell hi
      rw [List.reverse_append, List.reverse_reverse] at hi
      by_cases hold : i < e.cells.length
      · rw [List.getElem?_append_left (by simpa using hold)] at hi
        exact ht.address_of_cell i cell hi
      · rw [List.getElem?_append_right (by simpa using hold), List.length_reverse,
          Cell.getElem?_place] at hi
        obtain ⟨word, hword, rfl⟩ := Option.map_eq_some_iff.mp hi
        -- the new cells start where the old ones end, and all of them end below the limit
        have hi' : i - e.cells.length < words.length := (List.getElem?_eq_some_iff.mp hword).1
        have hreached := ht.reached
        simp only [wordSize, addressLimit] at hlimit hreached ⊢
        rw [UInt16.toNat_ofNat_of_lt' (by simp only [UInt16.size]; omega)]
        omega

theorem tiled_step (h : step symbols e s = (e', none)) (ht : Tiled e) : Tiled e' := by
  obtain ⟨m, hmark, hemit⟩ := step_eq_none.mp h
  exact tiled_emit (tiled_mark ht hmark) hemit

/-- The cells that a statement adds when it is reached; none if it fails. -/
def emitted (symbols : SymbolTable) (e : Encoding) (s : Statement) : List Cell :=
  match e.mark symbols s with
  | .error _ => []
  | .ok m =>
    match (m.scope symbols s).words s with
    | .error _ => []
    | .ok words => Cell.place m.locator.address s.line words

theorem emitted_of_step (h : step symbols e s = (e', none)) :
    ∃ m words, e.mark symbols s = .ok m ∧ (m.scope symbols s).words s = .ok words ∧
      emitted symbols e s = Cell.place m.locator.address s.line words ∧
      e'.cells = (emitted symbols e s).reverse ++ e.cells := by
  obtain ⟨m, hmark, hemit⟩ := step_eq_none.mp h
  obtain ⟨words, hwords, -, hcells⟩ := emit_eq_ok.mp hemit
  have hplace : emitted symbols e s = Cell.place m.locator.address s.line words := by
    unfold emitted
    simp only [hmark, hwords]
  have hkept := (mark_eq_ok.mp hmark).2
  exact ⟨m, words, hmark, hwords, hplace, by rw [hplace, hcells, hkept]⟩

/-- The first cell of a statement lies where the statement arrived. -/
theorem address_of_head {cell : Cell} (h : step symbols e s = (e', none))
    (hm : e.mark symbols s = .ok m) (hcell : (emitted symbols e s).head? = some cell) :
    cell.address.toNat = m.locator.address := by
  obtain ⟨m', hmark, hemit⟩ := step_eq_none.mp h
  cases hm.symm.trans hmark
  obtain ⟨words, hwords, hadvance, -⟩ := emit_eq_ok.mp hemit
  unfold emitted at hcell
  simp only [hm, hwords] at hcell
  cases words with
  | nil => cases hcell
  | cons word rest =>
    rw [List.head?_eq_getElem?, Cell.getElem?_place] at hcell
    cases hcell
    obtain ⟨hzero, -⟩ | ⟨-, hlimit, -⟩ := Locator.advance_eq_ok.mp hadvance
    · simp [wordSize] at hzero
    · simp only [wordSize, addressLimit, List.length_cons] at hlimit
      rw [Nat.mul_zero, Nat.add_zero]
      exact UInt16.toNat_ofNat_of_lt' (by simp only [UInt16.size]; omega)

/-- A run appends what its statements emit, in their order. -/
theorem cells_of_runs {final : Encoding} {statements : List Statement}
    {visits : List (Encoding × Statement)}
    (h : Walk.Runs (step symbols) e statements visits final) :
    final.cells.reverse =
      e.cells.reverse ++ visits.flatMap fun visit => emitted symbols visit.1 visit.2 := by
  induction h with
  | nil e => simp
  | stop rest hstep hend =>
    obtain ⟨-, -, -, -, -, hcells⟩ := emitted_of_step hstep
    simp [hcells]
  | next hstep hend hrest ih =>
    obtain ⟨-, -, -, -, -, hcells⟩ := emitted_of_step hstep
    rw [ih, hcells]
    simp

end Encoding

/-- A program is what a tiled encoding ends with. -/
theorem Assembler.tiled_of_encode [Interpreter] {a : Assembler} {statements : List Statement}
    {symbols : SymbolTable}
    {prog : Program} (h : (a.encode statements symbols).result = .ok prog) :
    ∃ e : Encoding, e.Tiled ∧ prog.origin = e.locator.origin ∧
      prog.cells = e.cells.reverse := by
  obtain ⟨hrun, horigin, hcells, -⟩ := runs_of_encode h
  exact ⟨_, hrun.keeps (fun _ _ _ => Encoding.tiled_step) Encoding.tiled_start, horigin, hcells⟩

/-- The image tiles memory. Whatever statements and symbols it was encoded from, a program starts at
an even origin, its cells follow each other in steps of two bytes and end within the address space;
and they are the words of the statements up to the first `.END`, one statement behind the other,
each cell with the line of its statement. -/
theorem image_tiles_memory [Interpreter] (a : Assembler) (statements : List Statement)
    (symbols : SymbolTable)
    (prog : Program) (h : (a.encode statements symbols).result = .ok prog) :
    prog.origin.toNat % 2 = 0 ∧
      (∀ (i : Nat) (hi : i < prog.cells.length),
        prog.cells[i].address.toNat = prog.origin.toNat + 2 * i) ∧
      prog.origin.toNat + 2 * prog.cells.length ≤ 0x10000 ∧
      ∃ parts : List (Statement × List Cell),
        parts.map (·.1) = Statement.upToEnd statements ∧
        prog.cells = parts.flatMap (·.2) ∧
        ∀ part ∈ parts, (∀ cell ∈ part.2, cell.line = part.1.line) ∧
          ∃ address : Nat,
            Scope.words ⟨symbols, address, part.1.line.number⟩ part.1 =
              .ok (part.2.map (·.word)) ∧
            ∀ cell ∈ part.2.head?, cell.address.toNat = address := by
  obtain ⟨hrun, horigin, hcells, -⟩ := Assembler.runs_of_encode h
  have ht := hrun.keeps (fun _ _ _ => Encoding.tiled_step) Encoding.tiled_start
  have hlength : prog.cells.length = (Encoding.walk symbols statements).final.cells.length := by
    rw [hcells, List.length_reverse]
  refine ⟨?_, fun i hi => ?_, ?_, ?_⟩
  · rw [horigin]
    exact ht.even
  · rw [horigin]
    apply ht.address_of_cell
    rw [← hcells]
    exact List.getElem?_eq_getElem hi
  · rw [horigin, hlength]
    have hreached := ht.reached
    have hlimit := ht.limit
    simp only [wordSize, addressLimit] at hreached hlimit
    omega
  · refine ⟨(Encoding.walk symbols statements).visits.map fun visit =>
      (visit.2, Encoding.emitted symbols visit.1 visit.2), ?_, ?_, ?_⟩
    · rw [List.map_map]
      exact hrun.visited
    · rw [hcells, Encoding.cells_of_runs hrun, List.flatMap_map]
      rfl
    · intro part hpart
      obtain ⟨visit, hvisit, rfl⟩ := List.mem_map.mp hpart
      obtain ⟨next, hstep⟩ := hrun.step_of_mem hvisit
      obtain ⟨m, words, hmark, hwords, hplace, -⟩ := Encoding.emitted_of_step hstep
      refine ⟨fun cell hcell => ?_, m.locator.address, ?_, fun cell hcell => ?_⟩
      · simp only [hplace] at hcell
        exact Cell.line_of_place hcell
      · simp only [hplace, Cell.words_place]
        exact hwords
      · exact Encoding.address_of_head hstep hmark hcell

/-- Statements that move the origin, restate it and reserve nothing, with text behind the end. -/
def movingStatements : List Statement :=
  (Listing.ofLines false
    (SourceLine.ofTexts [".BLKW 0", ".ORIG x4000", "A:", ".ORIG x4000", ".FILL 7",
    ".ORIG x4002", ".STRINGZ \"hi\"", ".END", ".FILL 1"])).statements

/-- The statements that move the origin give four cells from `x4000` on. -/
theorem image_tiles_memory_moving :
    ∃ prog, (Assembler.encode {} movingStatements .empty).result = .ok prog ∧
      prog.origin = 0x4000 ∧ prog.cells.length = 4 ∧
      ∀ (i : Nat) (hi : i < prog.cells.length),
        prog.cells[i].address.toNat = prog.origin.toNat + 2 * i := by
  have hok : ∃ prog, (Assembler.encode {} movingStatements .empty).result = .ok prog ∧
      prog.origin = 0x4000 ∧ prog.cells.length = 4 := exists_ok_of_any (by decide +kernel)
  obtain ⟨prog, hprog, horigin, hlength⟩ := hok
  obtain ⟨-, haddress, -⟩ := image_tiles_memory {} movingStatements .empty prog hprog
  exact ⟨prog, hprog, horigin, hlength, haddress⟩

end LittleComputer
