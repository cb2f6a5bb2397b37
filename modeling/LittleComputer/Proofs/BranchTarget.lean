import LittleComputer.Proofs.InstructionTable
import LittleComputer.Proofs.Layout
import LittleComputer.Proofs.Listing

/-!
# Where branches lead

Branches, `LEA` and `JSR` hold a distance in words, counted from the instruction behind them. If
their operand is a symbol, that distance is taken from the symbol's address and rounded down. Labels
stand at even addresses, so nothing is lost there. A predefined symbol can be odd: then the distance
has no exact value, and the instruction leads to the byte before the symbol.
-/

namespace LittleComputer

open Outcome

/-- The cells that a line gave. -/
def Program.cellsOf (p : Program) (line : SourceLine) : List Cell :=
  p.cells.filter fun cell => cell.line = line

/-- The lowest bits of the word, as a number in two's complement. -/
def Cell.offset (bits : Nat) (cell : Cell) : Int := (cell.word.toBitVec.extractLsb' 0 bits).toInt

/-- Where the instruction in a cell leads if its lowest bits are an offset in words. -/
def Cell.destination (bits : Nat) (cell : Cell) : Int :=
  cell.offset bits * 2 + cell.address.toNat + 2

/-- The operand that names a place, and the bits that hold the offset to it. -/
def Statement.place? (s : Statement) : Option (Nat × Text) :=
  match s.operation, s.operands with
  | .keyword .jsr, [word] => some (11, word)
  | .keyword .lea, [_, word] => some (9, word)
  | .keyword m, [word] => if m.flags?.isSome then some (9, word) else none
  | _, _ => none

theorem Instruction.extractLsb'_append {m n : Nat} (x : BitVec m) (y : BitVec n) :
    (x ++ y).extractLsb' 0 n = y := by
  rw [BitVec.extractLsb'_append_eq_of_add_le (by omega), BitVec.extractLsb'_eq_self]

namespace Scope

variable [Interpreter]

variable {scope : Scope} {s : Statement} {bits : Nat} {word : Text} {words : List UInt16}

theorem instruction_of_flags {m : Mnemonic} {flags : BitVec 3} (h : m.flags? = some flags) :
    scope.instruction m [word] = scope.offset 9 word >>= fun offset =>
      .ok (.branch flags offset) := by
  cases m <;> cases h <;> rfl

/-- A statement that names a place has one word, and the offset stands in its lowest bits. -/
theorem offset_of_place (hplace : s.place? = some (bits, word)) (h : scope.words s = .ok words) :
    0 < bits ∧ ∃ w offset, words = [w] ∧ scope.offset bits word = .ok offset ∧
      w.toBitVec.extractLsb' 0 bits = offset := by
  unfold Statement.place? at hplace
  split at hplace
  · -- `JSR`
    rename_i hop hoperands
    cases hplace
    obtain ⟨i, hi, rfl⟩ := instruction_of_words hop rfl h
    rw [hoperands] at hi
    obtain ⟨offset, hoffset, hi⟩ := bind_eq_ok.mp hi
    cases hi
    refine ⟨by decide, _, offset, rfl, hoffset, ?_⟩
    rw [Instruction.toBitVec_word]
    exact Instruction.extractLsb'_append _ _
  · -- `LEA`
    rename_i hop hoperands
    cases hplace
    obtain ⟨i, hi, rfl⟩ := instruction_of_words hop rfl h
    rw [hoperands] at hi
    obtain ⟨r, -, hi⟩ := bind_eq_ok.mp hi
    obtain ⟨offset, hoffset, hi⟩ := bind_eq_ok.mp hi
    cases hi
    refine ⟨by decide, _, offset, rfl, hoffset, ?_⟩
    rw [Instruction.toBitVec_word]
    exact Instruction.extractLsb'_append _ _
  · -- the branches
    rename_i m word' hnot hop hoperands
    split at hplace
    · rename_i hflags
      cases hplace
      obtain ⟨flags, hflags⟩ := Option.isSome_iff_exists.mp hflags
      have hm : m.isDirective = false := by cases m <;> first | rfl | cases hflags
      obtain ⟨i, hi, rfl⟩ := instruction_of_words hop hm h
      rw [hoperands, instruction_of_flags hflags] at hi
      obtain ⟨offset, hoffset, hi⟩ := bind_eq_ok.mp hi
      cases hi
      refine ⟨by decide, _, offset, rfl, hoffset, ?_⟩
      rw [Instruction.toBitVec_word]
      exact Instruction.extractLsb'_append _ _
    · cases hplace
  · cases hplace

end Scope

namespace Encoding

variable [Interpreter]

variable {e e' : Encoding} {symbols : SymbolTable} {s : Statement}

theorem line_of_emitted {cell : Cell} (h : cell ∈ emitted symbols e s) : cell.line = s.line := by
  unfold emitted at h
  split at h
  · cases h
  · split at h
    · cases h
    · exact Cell.line_of_place h

/-- One step: the instruction leads to the symbol, rounded down to an even address. -/
theorem destination_of_step {bits : Nat} {word : Text} {target : UInt16} (ht : Tiled e)
    (h : step symbols e s = (e', none)) (hplace : s.place? = some (bits, word))
    (htarget : symbols.lookup? word = some target) :
    ∃ cell, emitted symbols e s = [cell] ∧
      cell.destination bits = target.toNat - target.toNat % 2 := by
  obtain ⟨m, words, hmark, hwords, hcells, -⟩ := emitted_of_step h
  obtain ⟨hbits, w, offset, rfl, hoffset, hfield⟩ := Scope.offset_of_place hplace hwords
  have hsingle : emitted symbols e s = [⟨UInt16.ofNat m.locator.address, w, s.line⟩] := hcells
  refine ⟨_, hsingle, ?_⟩
  have haddress := address_of_head h hmark (congrArg List.head? hsingle)
  have hreach := Scope.reach_of_offset hbits hoffset
  unfold Scope.reach at hreach
  rw [show (m.scope symbols s).symbols.lookup? word = some target from htarget] at hreach
  have hdistance : ((target.toNat : Int) - (m.locator.address + 2)) / 2 = offset.toInt :=
    Except.ok.inj hreach
  have hm := tiled_mark ht hmark
  have heven := hm.even
  have hreached := hm.reached
  simp only [wordSize] at heven hreached
  unfold Cell.destination Cell.offset
  rw [hfield, haddress, ← hdistance]
  omega

/-- A statement whose line no other has is known by it: the cells of the line are what
it emitted. -/
theorem emitted_of_line {visits : List (Encoding × Statement)}
    (hnodup : (visits.map (·.2.line)).Nodup) {visit : Encoding × Statement}
    (hmem : visit ∈ visits) :
    (visits.flatMap fun visit => emitted symbols visit.1 visit.2).filter (·.line = visit.2.line) =
      emitted symbols visit.1 visit.2 := by
  have hothers : ∀ others : List (Encoding × Statement),
      (∀ other ∈ others, other.2.line ≠ visit.2.line) →
      (others.flatMap fun other => emitted symbols other.1 other.2).filter
        (·.line = visit.2.line) = [] := by
    intro others hne
    refine List.filter_eq_nil_iff.mpr fun cell hcell => ?_
    obtain ⟨other, hother, hcell⟩ := List.mem_flatMap.mp hcell
    simpa [line_of_emitted hcell] using hne other hother
  have hown : (emitted symbols visit.1 visit.2).filter (·.line = visit.2.line) =
      emitted symbols visit.1 visit.2 :=
    List.filter_eq_self.mpr fun cell hcell => by simp [line_of_emitted hcell]
  obtain ⟨before, after, rfl⟩ := List.append_of_mem hmem
  rw [List.map_append, List.map_cons, List.nodup_append] at hnodup
  obtain ⟨-, hafter, hbefore⟩ := hnodup
  have hbefore' : ∀ other ∈ before, other.2.line ≠ visit.2.line := fun other hother =>
    hbefore _ (List.mem_map.mpr ⟨other, hother, rfl⟩) _ List.mem_cons_self
  have hafter' : ∀ other ∈ after, other.2.line ≠ visit.2.line := fun other hother hsame =>
    (List.nodup_cons.mp hafter).1 (List.mem_map.mpr ⟨other, hother, hsame⟩)
  rw [List.flatMap_append, List.flatMap_cons, List.filter_append, List.filter_append,
    hothers before hbefore', hothers after hafter', hown, List.nil_append, List.append_nil]

end Encoding

namespace Assembler

variable [Interpreter]

variable {a : Assembler} {source : Input} {prog : Program}

/-- In a source that assembles, every statement is encoded without a fault, and the cells of its
line are what it emitted. -/
theorem cellsOf_statement (h : (a.assemble source).result = .ok prog) {s : Statement}
    (hs : s ∈ a.statementsOf source) :
    ∃ e e', Encoding.Tiled e ∧ Encoding.step prog.symbols e s = (e', none) ∧
      prog.cellsOf s.line = Encoding.emitted prog.symbols e s := by
  obtain ⟨-, hencode⟩ := passes_of_assemble h
  obtain ⟨hrun, -, hcells, -⟩ := runs_of_encode hencode
  have hvisited : (Encoding.walk prog.symbols (a.statementsOf source)).visits.map (·.2) =
      a.statementsOf source := hrun.visited.trans (Listing.upToEnd_ofLines _ _)
  have hmem := hs
  rw [← hvisited] at hmem
  obtain ⟨⟨e, _⟩, hvisit, rfl⟩ := List.mem_map.mp hmem
  have hnodup : ((Encoding.walk prog.symbols (a.statementsOf source)).visits.map
      (·.2.line)).Nodup := by
    have hlines := (Listing.lines_sublist a.implicitLabels source.read.sourceLines).nodup
      (SourceLine.nodup_ofTexts _)
    have hmaps := congrArg (List.map (·.line)) hvisited
    rw [List.map_map] at hmaps
    exact hmaps ▸ hlines
  obtain ⟨e', hstep⟩ := hrun.step_of_mem hvisit
  refine ⟨e, e', hrun.keeps_at (fun _ _ _ => Encoding.tiled_step) Encoding.tiled_start hvisit,
    hstep, ?_⟩
  unfold Program.cellsOf
  rw [hcells, Encoding.cells_of_runs hrun]
  exact Encoding.emitted_of_line hnodup hvisit

/-- Only a predefined symbol can have an odd address. -/
theorem predefined_of_odd (h : (a.assemble source).result = .ok prog) {key : String}
    {target : UInt16}
    (htarget : prog.symbols.addresses[key]? = some target) (hodd : target.toNat % 2 = 1) :
    ∃ name : String, a.predefined.addresses[name]? = some target ∧
      (name : Text).upper = key := by
  obtain ⟨hsurvey, -⟩ := passes_of_assemble h
  obtain ⟨seeded, hdef, hrun, hsymbols⟩ := runs_of_survey hsurvey
  rw [← hsymbols] at htarget
  have hmem : key ∈ (Survey.walk seeded (a.statementsOf source)).final.symbols.addresses := by
    rw [Std.ExtTreeMap.mem_iff_isSome_getElem?, htarget]
    rfl
  rcases (Survey.mem_of_steps hrun.steps key).mp hmem with hseeded | ⟨name, hname, rfl⟩
  · obtain ⟨old, hold⟩ := Option.isSome_iff_exists.mp
      (Std.ExtTreeMap.mem_iff_isSome_getElem?.mp hseeded)
    have hkept := Survey.within_of_runs hrun key old hold
    obtain rfl : old = target := Option.some.inj (hkept.symm.trans htarget)
    exact (addresses_of_predefined hdef key old).mp hold
  · -- a label, which stands at an even address
    obtain ⟨s, hs, hlabel⟩ := List.mem_filterMap.mp hname
    obtain ⟨visit, hvisit, rfl⟩ := List.mem_map.mp hs
    obtain ⟨m, hmark, hlimit, haddress⟩ := Survey.label_of_runs hrun hvisit hlabel
    have heven := Survey.aligned_of_runs hrun hvisit hmark
    rw [haddress] at htarget
    have hnat : target.toNat = m.locator.address := by
      rw [← Option.some.inj htarget]
      exact UInt16.toNat_ofNat_of_lt' hlimit
    simp only [wordSize] at heven
    omega

end Assembler

/-- Where branches lead. In a source that assembles, the line of a branch, of `LEA` or of `JSR`
gives one cell; if its operand is a symbol, the instruction leads to the symbol's address rounded
down to an even one. So it reaches the symbol exactly if its address is even, and only predefined
symbols can be odd. -/
theorem branches_lead_to_even_address [Interpreter] (a : Assembler) (source : Input)
    (prog : Program)
    (h : (a.assemble source).result = .ok prog) :
    (∀ s ∈ a.statementsOf source, ∀ (bits : Nat) (word : Text) (target : UInt16),
      s.place? = some (bits, word) → prog.symbols.lookup? word = some target →
      ∃ cell, prog.cellsOf s.line = [cell] ∧
        cell.destination bits = target.toNat - target.toNat % 2 ∧
        (cell.destination bits = target.toNat ↔ target.toNat % 2 = 0)) ∧
    ∀ (key : String) (target : UInt16), prog.symbols.addresses[key]? = some target →
      target.toNat % 2 = 1 →
      ∃ name : String, a.predefined.addresses[name]? = some target ∧
        (name : Text).upper = key := by
  refine ⟨fun s hs bits word target hplace htarget => ?_,
    fun key target => Assembler.predefined_of_odd h⟩
  obtain ⟨e, e', htiled, hstep, hcells⟩ := Assembler.cellsOf_statement h hs
  obtain ⟨cell, hcell, hdestination⟩ := Encoding.destination_of_step htiled hstep hplace htarget
  refine ⟨cell, hcells.trans hcell, hdestination, ?_⟩
  rw [hdestination]
  omega

/-- A source that leads back, ahead and to a predefined symbol. -/
def leadingSource : Input :=
  ⟨"BACK: ADD R0, R0, #1\nBRz back\nJSR NEXT\nLEA R1, Trap\nNEXT: RET\n", false⟩

/-- In the source that leads to even symbols every instruction reaches its symbol. -/
theorem branches_lead_to_even_address_leading :
    let a : Assembler := Assembler.predefine {} "trap" 0x2F00
    ∃ prog, (a.assemble leadingSource).result = .ok prog ∧
      prog.symbols.lookup? "back" = some 0x3000 ∧ prog.symbols.lookup? "NEXT" = some 0x3008 ∧
      prog.symbols.lookup? "Trap" = some 0x2F00 ∧
      (∃ cell, prog.cellsOf ⟨2, "BRz back"⟩ = [cell] ∧ cell.destination 9 = 0x3000) ∧
      (∃ cell, prog.cellsOf ⟨3, "JSR NEXT"⟩ = [cell] ∧ cell.destination 11 = 0x3008) ∧
      ∃ cell, prog.cellsOf ⟨4, "LEA R1, Trap"⟩ = [cell] ∧ cell.destination 9 = 0x2F00 := by
  intro a
  have hok : ∃ prog, (a.assemble leadingSource).result = .ok prog ∧
      prog.symbols.lookup? "back" = some 0x3000 ∧ prog.symbols.lookup? "NEXT" = some 0x3008 ∧
      prog.symbols.lookup? "Trap" = some 0x2F00 := exists_ok_of_any (by decide +kernel)
  obtain ⟨prog, hprog, hback, hnext, htrap⟩ := hok
  obtain ⟨hleads, -⟩ := branches_lead_to_even_address a leadingSource prog hprog
  have hbr : (⟨⟨2, "BRz back"⟩, none, .keyword .brz, ["back"]⟩ : Statement) ∈
      a.statementsOf leadingSource := by decide +kernel
  have hjsr : (⟨⟨3, "JSR NEXT"⟩, none, .keyword .jsr, ["NEXT"]⟩ : Statement) ∈
      a.statementsOf leadingSource := by decide +kernel
  have hlea : (⟨⟨4, "LEA R1, Trap"⟩, none, .keyword .lea, ["R1", "Trap"]⟩ : Statement) ∈
      a.statementsOf leadingSource := by decide +kernel
  refine ⟨prog, hprog, hback, hnext, htrap, ?_, ?_, ?_⟩
  · obtain ⟨cell, hcell, hto, -⟩ := hleads _ hbr 9 "back" _ rfl hback
    exact ⟨cell, hcell, hto⟩
  · obtain ⟨cell, hcell, hto, -⟩ := hleads _ hjsr 11 "NEXT" _ rfl hnext
    exact ⟨cell, hcell, hto⟩
  · obtain ⟨cell, hcell, hto, -⟩ := hleads _ hlea 9 "Trap" _ rfl htrap
    exact ⟨cell, hcell, hto⟩

/-- A branch to a predefined symbol at an odd address is assembled, and leads to the byte
before it. -/
theorem branch_misses_odd_symbol :
    ∃ prog, ((Assembler.predefine {} "odd" 0x3005).assemble ⟨"BR ODD\n", false⟩).result =
      .ok prog ∧
      prog.symbols.lookup? "ODD" = some 0x3005 ∧
      prog.cells = [⟨0x3000, 0x0E01, ⟨1, "BR ODD"⟩⟩] ∧
      prog.cells.map (Cell.destination 9) = [0x3004] :=
  exists_ok_of_any (by decide +kernel)

end LittleComputer
