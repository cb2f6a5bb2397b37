import LittleComputer.Object.Memory
import LittleComputer.Proofs.LabelAddress
import LittleComputer.Proofs.Reading

/-!
# Object files keep programs

An object file has one line for each word, `0x` and four digits, so that reading it gives back the
image it was written from. The words of a program lie between its origin and the end of the address
space, which is where the memory ends too: two bytes for each of its words. So a program can always
be loaded, and memory then holds its cells and otherwise what it held before.
-/

namespace LittleComputer

open Outcome

/-! ## Words in hexadecimal -/

theorem digit?_hexDigit {n : Nat} (h : n < 16) : (Glyph.char (hexDigit n)).digit? 16 = some n := by
  have table : ∀ n < 16, (Glyph.char (hexDigit n)).digit? 16 = some n := by decide +kernel
  exact table n h

theorem natural?_hexWord (w : UInt16) :
    Text.natural? 16 ((hexWord w).map .char) = some w.toNat := by
  have hw : w.toNat < 65536 := w.toNat_lt
  have hthousands : w.toNat / 4096 < 16 := by omega
  have hhundreds : w.toNat / 256 % 16 < 16 := Nat.mod_lt _ (by decide)
  have htens : w.toNat / 16 % 16 < 16 := Nat.mod_lt _ (by decide)
  have hones : w.toNat % 16 < 16 := Nat.mod_lt _ (by decide)
  simp only [hexWord, List.map_cons, List.map_nil, Text.natural?, List.isEmpty_cons,
    Bool.false_eq_true, if_false, Text.naturalFrom?, digit?_hexDigit hthousands,
    digit?_hexDigit hhundreds, digit?_hexDigit htens, digit?_hexDigit hones, Option.some_inj]
  omega

theorem word?_hexWordText (w : UInt16) : Image.word? (hexWordText w) = some w := by
  have hmark : Image.dropMark (hexWordText w) = (hexWord w).map .char := rfl
  have hw : w.toNat < 65536 := w.toNat_lt
  unfold Image.word?
  rw [hmark, natural?_hexWord]
  simp only [hw, if_true, UInt16.ofNat_toNat]

/-- The characters of a word are of ASCII and not blank. -/
theorem hexWordText_plain (w : UInt16) :
    ∀ g ∈ hexWordText w, g.isAscii = true ∧ g.isBlank = false := by
  have table : ∀ n < 16, (Glyph.char (hexDigit n)).isAscii = true ∧
      (Glyph.char (hexDigit n)).isBlank = false := by decide +kernel
  have hw : w.toNat < 65536 := w.toNat_lt
  intro g hg
  simp only [hexWordText, hexWord, List.map_cons, List.map_nil, List.mem_cons, List.not_mem_nil,
    or_false] at hg
  rcases hg with rfl | rfl | rfl | rfl | rfl | rfl
  · decide
  · decide
  · exact table _ (by omega)
  · exact table _ (by omega)
  · exact table _ (by omega)
  · exact table _ (by omega)

namespace Image

theorem text_eq (i : Image) :
    i.text = ((i.origin :: i.words).map hexWordText).flatMap (· ++ [.char '\n']) := by
  unfold text
  rw [List.flatMap_map]
  rfl

/-- An object file is plain ASCII. -/
theorem ascii_text (i : Image) : ∀ g ∈ i.text, g.isAscii = true := by
  intro g hg
  rw [text_eq] at hg
  obtain ⟨line, hline, hg⟩ := List.mem_flatMap.mp hg
  obtain ⟨w, -, rfl⟩ := List.mem_map.mp hline
  rcases List.mem_append.mp hg with hg | hg
  · exact (hexWordText_plain w g hg).1
  · cases List.mem_singleton.mp hg
    rfl

theorem wordsFrom_hexWordText (words : List UInt16) (number : Nat) (seen : List UInt16) :
    wordsFrom number (words.map hexWordText) seen = .ok (seen.reverse ++ words) := by
  induction words generalizing number seen with
  | nil => simp [wordsFrom]
  | cons w rest ih =>
    have htrim : (hexWordText w).trim = hexWordText w :=
      Text.trim_of_unblank fun g hg => (hexWordText_plain w g hg).2
    have hnonempty : (hexWordText w).isEmpty = false := rfl
    rw [List.map_cons, wordsFrom]
    simp only [htrim, hnonempty, Bool.false_eq_true, if_false, word?_hexWordText]
    rw [ih]
    simp

/-- Reading gives back what was written. -/
theorem read_text (i : Image) : read ⟨i.text, false⟩ = .ok i := by
  have hlines : Input.read ⟨i.text, false⟩ =
      ⟨(i.origin :: i.words).map hexWordText, none⟩ := by
    rw [text_eq]
    refine Input.read_flatMap (fun line hline g hg => ?_) fun line hline => ?_
    · obtain ⟨w, -, rfl⟩ := List.mem_map.mp hline
      exact (hexWordText_plain w g hg).2
    · obtain ⟨w, -, rfl⟩ := List.mem_map.mp hline
      have hlength : (hexWordText w).length = 6 := rfl
      unfold Text.isReadableLine
      rw [Text.width_of_ascii fun g hg => (hexWordText_plain w g hg).1, hlength]
      decide
  unfold read
  simp only [hlines, wordsFrom_hexWordText, List.reverse_nil, List.nil_append]

/-- Also through the bytes that a file holds. -/
theorem read_written (i : Image) :
    read ⟨Text.ofBytes (Emission.ofText none i.text).output, false⟩ = .ok i := by
  have hbytes : (Emission.ofText none i.text).output = i.text.toBytes := rfl
  rw [hbytes, Text.ofBytes_toBytes i.ascii_text, read_text]

end Image

/-! ## Loading -/

theorem Memory.word_ofFn (f : Fin memorySize → UInt16) (address : UInt16) :
    (Memory.mk (Vector.ofFn f)).word address = f (index address) :=
  Vector.getElem_ofFn (index address).isLt

/-- Words that fit are loaded: they stand from the origin on, and all other words stay. -/
theorem Memory.load_of_fits (m : Memory) {origin : UInt16} {words : List UInt16}
    (h : origin.toNat / 2 + words.length ≤ memorySize) :
    ∃ m', m.load ⟨origin, words⟩ = .ok (UInt16.ofNat (2 * (origin.toNat / 2)), m') ∧
      ∀ address : UInt16, m'.word address =
        if address.toNat / 2 < origin.toNat / 2 then m.word address
        else words.getD (address.toNat / 2 - origin.toNat / 2) (m.word address) := by
  refine ⟨_, if_pos h, fun address => ?_⟩
  rw [word_ofFn]
  simp only [index, word, List.getD_eq_getElem?_getD, Array.getD_eq_getD_getElem?,
    List.getElem?_toArray]

section Program

variable {e : Encoding} {prog : Program} (ht : e.Tiled) (horigin : prog.origin = e.locator.origin)
  (hcells : prog.cells = e.cells.reverse)

include ht horigin hcells

/-- The words of a program start at an even address and end within the memory. -/
theorem Program.fits : 2 * (prog.origin.toNat / 2) = prog.origin.toNat ∧
    prog.origin.toNat / 2 + prog.words.length ≤ memorySize := by
  have heven := ht.even
  have hreached := ht.reached
  have hlimit := ht.limit
  rw [← horigin] at heven hreached
  have hlength : prog.words.length = e.cells.length := by
    rw [Program.words, List.length_map, hcells, List.length_reverse]
  simp only [wordSize, addressLimit, memorySize] at *
  omega

theorem Program.cell_of_index {k : Nat} {cell : Cell} (hk : prog.cells[k]? = some cell) :
    prog.words[k]? = some cell.word ∧ cell.address.toNat = prog.origin.toNat + 2 * k := by
  refine ⟨?_, ?_⟩
  · rw [Program.words, List.getElem?_map, hk]
    rfl
  · rw [hcells] at hk
    rw [horigin]
    exact ht.address_of_cell k cell hk

/-- Loading a program goes through. Memory then holds the cells, and nothing else of it
has changed. -/
theorem Memory.load_program (m : Memory) :
    ∃ m', m.load (Image.ofProgram prog) = .ok (prog.origin, m') ∧
      (∀ cell ∈ prog.cells, m'.word cell.address = cell.word) ∧
      ∀ address : UInt16,
        (∀ cell ∈ prog.cells, cell.address.toNat / 2 ≠ address.toNat / 2) →
        m'.word address = m.word address := by
  obtain ⟨heven, hfits⟩ := Program.fits ht horigin hcells
  obtain ⟨m', hload, hword⟩ := m.load_of_fits hfits
  rw [heven, UInt16.ofNat_toNat] at hload
  refine ⟨m', hload, fun cell hcell => ?_, fun address hother => ?_⟩
  · obtain ⟨k, hk⟩ := List.getElem?_of_mem hcell
    obtain ⟨hwordk, haddress⟩ := Program.cell_of_index ht horigin hcells hk
    have hindex : cell.address.toNat / 2 - prog.origin.toNat / 2 = k := by omega
    rw [hword, if_neg (by omega), hindex, List.getD_eq_getElem?_getD, hwordk]
    rfl
  · rw [hword]
    split
    · rfl
    · rename_i hbehind
      -- a word of the image at this place would be one of the cells
      cases hk : prog.cells[address.toNat / 2 - prog.origin.toNat / 2]? with
      | none =>
        rw [List.getD_eq_getElem?_getD, Program.words, List.getElem?_map, hk]
        rfl
      | some cell =>
        obtain ⟨-, haddress⟩ := Program.cell_of_index ht horigin hcells hk
        have hne := hother cell (List.mem_of_getElem? hk)
        omega

end Program

/-- Assembling, writing, reading and loading lose nothing. Every image is read back from the bytes
of its object file. And a program that was assembled, written and read back can be loaded into any
memory: loading starts at its origin, every cell is found at its address, and words at other
addresses stay as they were. -/
theorem object_file_keeps_program [Interpreter] :
    (∀ i : Image, Image.read ⟨Text.ofBytes (Emission.ofText none i.text).output, false⟩ =
      .ok i) ∧
    ∀ (a : Assembler) (source : Input) (prog : Program), (a.assemble source).result = .ok prog →
      ∀ m : Memory, ∃ i m',
        Image.read
          ⟨Text.ofBytes (Emission.ofText none (Image.ofProgram prog).text).output, false⟩ =
            .ok i ∧
        m.load i = .ok (prog.origin, m') ∧
        (∀ cell ∈ prog.cells, m'.word cell.address = cell.word) ∧
        ∀ address : UInt16,
          (∀ cell ∈ prog.cells, cell.address.toNat / 2 ≠ address.toNat / 2) →
          m'.word address = m.word address := by
  refine ⟨Image.read_written, fun a source prog h m => ?_⟩
  obtain ⟨-, hencode⟩ := Assembler.passes_of_assemble h
  obtain ⟨e, ht, horigin, hcells⟩ := Assembler.tiled_of_encode hencode
  obtain ⟨m', hload, hcell, hother⟩ := Memory.load_program ht horigin hcells m
  exact ⟨_, m', Image.read_written _, hload, hcell, hother⟩

/-- A program at the top of memory, whose last word is the last there is. -/
def topSource : Input := ⟨".ORIG xFFFA\n.STRINGZ \"hi\"\n", false⟩

/-- The program at the top of memory is loaded, and the word before it stays zero. -/
theorem object_file_keeps_program_top :
    ∃ prog, (Assembler.assemble {} topSource).result = .ok prog ∧ prog.origin = 0xFFFA ∧
      prog.cells.map (·.address) = [0xFFFA, 0xFFFC, 0xFFFE] ∧
      ∃ i m', Image.read
          ⟨Text.ofBytes (Emission.ofText none (Image.ofProgram prog).text).output, false⟩ =
            .ok i ∧
        Memory.zero.load i = .ok (prog.origin, m') ∧
        (∀ cell ∈ prog.cells, m'.word cell.address = cell.word) ∧
        m'.word 0xFFF8 = Memory.zero.word 0xFFF8 := by
  have hok : ∃ prog, (Assembler.assemble {} topSource).result = .ok prog ∧
      prog.origin = 0xFFFA ∧
      prog.cells.map (·.address) = [0xFFFA, 0xFFFC, 0xFFFE] := exists_ok_of_any (by decide +kernel)
  obtain ⟨prog, hprog, horigin, haddresses⟩ := hok
  obtain ⟨i, m', hread, hload, hcell, hother⟩ :=
    object_file_keeps_program.2 {} topSource prog hprog Memory.zero
  refine ⟨prog, hprog, horigin, haddresses, i, m', hread, hload, hcell,
    hother 0xFFF8 fun cell hmem => ?_⟩
  have haddress : cell.address ∈ prog.cells.map (·.address) :=
    List.mem_map.mpr ⟨cell, hmem, rfl⟩
  rw [haddresses] at haddress
  simp only [List.mem_cons, List.not_mem_nil, or_false] at haddress
  rcases haddress with h | h | h
  · rw [h]; decide
  · rw [h]; decide
  · rw [h]; decide

end LittleComputer
