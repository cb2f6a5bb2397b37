import LittleComputer.Expression.Evaluation
import LittleComputer.Proofs.Decoding
import LittleComputer.Proofs.Outcome

/-!
# The instruction table

`Mnemonic.row?` is the table of instructions: for each keyword what it does, how many registers it
names and what follows them. With the operands of a statement a row gives a `Form`, in which
registers are numbers and everything else is an integer. The word of a statement, read back, has the
form that the table gives, so no operand was cut off and no alias is more than a way of writing.
-/

namespace LittleComputer

open Outcome

/-- What an instruction does, without its operands. -/
inductive Action where
  | operate (op : Operator)
  | branch (flags : BitVec 3)
  | jump
  | call
  | callRegister
  | access (kind : Access)
  | loadAddress
  | shift (kind : Shift)
  | trap
  | returnFromInterrupt
deriving DecidableEq, Repr

/-- An instruction with its operands as they are meant: the registers in their order, and the
immediate value or offset if there is one. -/
structure Form where
  action : Action
  registers : List Register
  value : Option Int
deriving DecidableEq, Repr

/-- Immediate values of operators and all offsets are signed, amounts and trap vectors are not. -/
def Instruction.form : Instruction → Form
  | .operateRegister op dr sr1 sr2 => ⟨.operate op, [dr, sr1, sr2], none⟩
  | .operateImmediate op dr sr imm => ⟨.operate op, [dr, sr], some imm.toInt⟩
  | .branch flags offset => ⟨.branch flags, [], some offset.toInt⟩
  | .jump base => ⟨.jump, [base], none⟩
  | .call offset => ⟨.call, [], some offset.toInt⟩
  | .callRegister base => ⟨.callRegister, [base], none⟩
  | .access kind r base offset => ⟨.access kind, [r, base], some offset.toInt⟩
  | .loadAddress dr offset => ⟨.loadAddress, [dr], some offset.toInt⟩
  | .shift kind dr sr amount => ⟨.shift kind, [dr, sr], some amount.toNat⟩
  | .trap vector => ⟨.trap, [], some vector.toNat⟩
  | .returnFromInterrupt => ⟨.returnFromInterrupt, [], none⟩

/-- The instruction of a form, if its registers and value are those of its action. Values are cut to
the width of their field. -/
def Form.instruction? : Form → Option Instruction
  | ⟨.operate op, [dr, sr1, sr2], none⟩ => some (.operateRegister op dr sr1 sr2)
  | ⟨.operate op, [dr, sr], some v⟩ => some (.operateImmediate op dr sr (.ofInt 5 v))
  | ⟨.branch flags, [], some v⟩ => some (.branch flags (.ofInt 9 v))
  | ⟨.jump, [base], none⟩ => some (.jump base)
  | ⟨.call, [], some v⟩ => some (.call (.ofInt 11 v))
  | ⟨.callRegister, [base], none⟩ => some (.callRegister base)
  | ⟨.access kind, [r, base], some v⟩ => some (.access kind r base (.ofInt 6 v))
  | ⟨.loadAddress, [dr], some v⟩ => some (.loadAddress dr (.ofInt 9 v))
  | ⟨.shift kind, [dr, sr], some v⟩ => some (.shift kind dr sr (.ofInt 4 v))
  | ⟨.trap, [], some v⟩ => some (.trap (.ofInt 8 v))
  | ⟨.returnFromInterrupt, [], none⟩ => some .returnFromInterrupt
  | _ => none

theorem Instruction.instruction?_form (i : Instruction) : i.form.instruction? = some i := by
  cases i with
  | shift kind dr sr amount =>
    simp only [form, Form.instruction?, BitVec.ofInt_natCast, BitVec.ofNat_toNat,
      BitVec.setWidth_eq]
  | trap vector =>
    simp only [form, Form.instruction?, BitVec.ofInt_natCast, BitVec.ofNat_toNat,
      BitVec.setWidth_eq]
  | _ => simp only [form, Form.instruction?, BitVec.ofInt_toInt]

theorem Instruction.form_injective {i j : Instruction} (h : i.form = j.form) : i = j := by
  have hi := i.instruction?_form
  rw [h, j.instruction?_form] at hi
  exact (Option.some.inj hi).symm

/-- What follows the registers that are written: nothing, something that the keyword implies, or one
more operand. -/
inductive Tail where
  | nothing
  | register (r : Register)
  | value (v : Int)
  | number
  | offset
  | registerOrNumber
deriving DecidableEq, Repr

structure Row where
  action : Action
  /-- Registers that are written first. -/
  registers : Nat
  tail : Tail
deriving DecidableEq, Repr

/-- The table. Directives have no row. -/
def Mnemonic.row? : Mnemonic → Option Row
  | .add => some ⟨.operate .add, 2, .registerOrNumber⟩
  | .and => some ⟨.operate .and, 2, .registerOrNumber⟩
  | .xor => some ⟨.operate .xor, 2, .registerOrNumber⟩
  | .not => some ⟨.operate .xor, 2, .value (-1)⟩
  | .br => some ⟨.branch 0b111, 0, .offset⟩
  | .brn => some ⟨.branch 0b100, 0, .offset⟩
  | .brz => some ⟨.branch 0b010, 0, .offset⟩
  | .brp => some ⟨.branch 0b001, 0, .offset⟩
  | .brnz => some ⟨.branch 0b110, 0, .offset⟩
  | .brnp => some ⟨.branch 0b101, 0, .offset⟩
  | .brzp => some ⟨.branch 0b011, 0, .offset⟩
  | .brnzp => some ⟨.branch 0b111, 0, .offset⟩
  | .nop => some ⟨.branch 0b000, 0, .value 0⟩
  | .jmp => some ⟨.jump, 1, .nothing⟩
  | .ret => some ⟨.jump, 0, .register 7⟩
  | .jsr => some ⟨.call, 0, .offset⟩
  | .jsrr => some ⟨.callRegister, 1, .nothing⟩
  | .ldb => some ⟨.access .loadByte, 2, .number⟩
  | .ldw => some ⟨.access .loadWord, 2, .number⟩
  | .stb => some ⟨.access .storeByte, 2, .number⟩
  | .stw => some ⟨.access .storeWord, 2, .number⟩
  | .lea => some ⟨.loadAddress, 1, .offset⟩
  | .lshf => some ⟨.shift .left, 2, .number⟩
  | .rshfl => some ⟨.shift .rightLogical, 2, .number⟩
  | .rshfa => some ⟨.shift .rightArithmetic, 2, .number⟩
  | .trap => some ⟨.trap, 0, .number⟩
  | .halt => some ⟨.trap, 0, .value 0x25⟩
  | .rti => some ⟨.returnFromInterrupt, 0, .nothing⟩
  | .orig | .fill | .blkw | .stringz | .finish => none

/-- Whether an operand is taken for a register where a number could stand as well. -/
def Text.startsRegister : Text → Bool
  | [] => false
  | g :: _ => g.is 'R' || g.is 'r'

namespace Register

/-- The registers that words name, if all of them do. -/
def parseAll? (words : List Text) : Option (List Register) :=
  words.mapM fun word => (parse word).toOption

theorem parseAll?_one {a : Text} {r : Register} (h : parse a = .ok r) :
    parseAll? [a] = some [r] := by
  simp [parseAll?, h, Except.toOption]

theorem parseAll?_two {a b : Text} {r q : Register} (h : parse a = .ok r) (h' : parse b = .ok q) :
    parseAll? [a, b] = some [r, q] := by
  simp [parseAll?, h, h', Except.toOption]

end Register

namespace Scope

variable [Interpreter]

/-- The distance to a symbol, or a number taken as it is. -/
def reach (s : Scope) (word : Text) : Except Fault Int :=
  match s.symbols.lookup? word with
  | some target => .ok (s.distance target)
  | none => s.number word

/-- Registers and value of a tail, from the operands behind the written registers. -/
def tail? (s : Scope) : Tail → List Text → Option (List Register × Option Int)
  | .nothing, [] => some ([], none)
  | .register r, [] => some ([r], none)
  | .value v, [] => some ([], some v)
  | .number, [word] => (s.number word).toOption.map fun v => ([], some v)
  | .offset, [word] => (s.reach word).toOption.map fun v => ([], some v)
  | .registerOrNumber, [word] =>
    if word.startsRegister then (Register.parse word).toOption.map fun r => ([r], none)
    else (s.number word).toOption.map fun v => ([], some v)
  | _, _ => none

/-- The form that the table gives to a keyword with its operands. -/
def form? (s : Scope) (m : Mnemonic) (operands : List Text) : Option Form := do
  let row ← m.row?
  if row.registers ≤ operands.length then
    let written ← Register.parseAll? (operands.take row.registers)
    let (implied, value) ← s.tail? row.tail (operands.drop row.registers)
    return ⟨row.action, written ++ implied, value⟩
  else none

end Scope

/-! ## Fields keep their values -/

namespace Field

variable {n : Nat} {v : Int} {b : BitVec n}

theorem toInt_of_accepts_signed (hn : 0 < n) (h : (signed n).Accepts v) :
    (BitVec.ofInt n v).toInt = v := by
  obtain ⟨hleast, hgreatest⟩ := h
  apply BitVec.toInt_ofInt_eq_self hn
  · simpa [signed] using hleast
  · have h' : v ≤ 2 ^ (n - 1) - 1 := by simpa [signed] using hgreatest
    omega

theorem toInt_of_pack_signed (hn : 0 < n) (h : (signed n).pack v = .ok b) : b.toInt = v := by
  unfold pack at h
  split at h
  · rename_i haccepts
    cases h
    exact toInt_of_accepts_signed hn haccepts
  · cases h

theorem toNat_of_pack_unsigned (h : (unsigned n).pack v = .ok b) : (b.toNat : Int) = v := by
  unfold pack at h
  split at h
  · rename_i haccepts
    obtain ⟨hleast, hgreatest⟩ := haccepts
    have hpos : 0 ≤ v := hleast
    have hlt : v < ((2 ^ n : Nat) : Int) := by
      have h' : v ≤ ((2 ^ n : Nat) : Int) - 1 := by simpa [unsigned] using hgreatest
      omega
    cases h
    change ((BitVec.ofInt n v).toNat : Int) = v
    rw [BitVec.toNat_ofInt, Int.emod_eq_of_lt hpos hlt, Int.toNat_of_nonneg hpos]
  · cases h

end Field

namespace Scope

variable [Interpreter]

variable {s : Scope} {word : Text} {n : Nat} {b : BitVec n}

theorem number_of_immediate {f : Field} {b : BitVec f.bits} (h : s.immediate f word = .ok b) :
    ∃ v, s.number word = .ok v ∧ f.pack v = .ok b := by
  unfold immediate at h
  split at h
  · exact ⟨_, ‹_›, h⟩
  · cases h

theorem number_of_signed (hn : 0 < n) (h : s.immediate (Field.signed n) word = .ok b) :
    s.number word = .ok b.toInt := by
  obtain ⟨v, hv, hpack⟩ := number_of_immediate h
  rw [hv, Field.toInt_of_pack_signed hn hpack]

theorem number_of_unsigned (h : s.immediate (Field.unsigned n) word = .ok b) :
    s.number word = .ok b.toNat := by
  obtain ⟨v, hv, hpack⟩ := number_of_immediate h
  rw [hv, Field.toNat_of_pack_unsigned hpack]

theorem number_of_immediateOrLabel (hn : 0 < n)
    (h : s.immediateOrLabel (Field.signed n) word = .ok b) : s.number word = .ok b.toInt := by
  unfold immediateOrLabel at h
  split at h
  · split at h
    · cases h
    · cases h
  · exact number_of_signed hn h

theorem reach_of_offset (hn : 0 < n) (h : s.offset n word = .ok b) :
    s.reach word = .ok b.toInt := by
  unfold offset at h
  unfold reach
  cases hlookup : s.symbols.lookup? word with
  | none =>
    rw [hlookup] at h
    exact number_of_immediateOrLabel hn h
  | some target =>
    rw [hlookup] at h
    simp only at h ⊢
    split at h
    · rename_i haccepts
      cases h
      rw [Field.toInt_of_accepts_signed hn haccepts]
    · cases h

end Scope

section

variable [Interpreter] {s : Scope} {word : Text} {n : Nat} {b : BitVec (n + 1)}

theorem Scope.tail?_signed (h : s.immediate (Field.signed (n + 1)) word = .ok b) :
    s.tail? .number [word] = some ([], some b.toInt) := by
  simp [tail?, number_of_signed n.succ_pos h, Except.toOption]

theorem Scope.tail?_unsigned (h : s.immediate (Field.unsigned (n + 1)) word = .ok b) :
    s.tail? .number [word] = some ([], some (b.toNat : Int)) := by
  simp [tail?, number_of_unsigned h, Except.toOption]

theorem Scope.tail?_offset (h : s.offset (n + 1) word = .ok b) :
    s.tail? .offset [word] = some ([], some b.toInt) := by
  simp [tail?, reach_of_offset n.succ_pos h, Except.toOption]

end

/-! ## The rows of the encoder -/

namespace Mnemonic

variable {m : Mnemonic}

theorem row?_of_flags {flags : BitVec 3} (h : m.flags? = some flags) :
    m.row? = some ⟨.branch flags, 0, .offset⟩ := by
  cases m <;> cases h <;> rfl

theorem row?_of_operator {op : Operator} (h : m.operator? = some op) :
    m.row? = some ⟨.operate op, 2, .registerOrNumber⟩ := by
  cases m <;> cases h <;> rfl

theorem row?_of_access {kind : Access} (h : m.access? = some kind) :
    m.row? = some ⟨.access kind, 2, .number⟩ := by
  cases m <;> cases h <;> rfl

theorem row?_of_shift {kind : Shift} (h : m.shift? = some kind) :
    m.row? = some ⟨.shift kind, 2, .number⟩ := by
  cases m <;> cases h <;> rfl

end Mnemonic

namespace Scope

variable [Interpreter]

variable {s : Scope} {m : Mnemonic} {i : Instruction}

/-- A row read off operands whose first words are its registers. -/
theorem form?_of_row {action : Action} {tail : Tail} (words rest : List Text)
    {written implied : List Register} {value : Option Int}
    (hrow : m.row? = some ⟨action, words.length, tail⟩)
    (hwritten : Register.parseAll? words = some written)
    (htail : s.tail? tail rest = some (implied, value)) :
    s.form? m (words ++ rest) = some ⟨action, written ++ implied, value⟩ := by
  simp [form?, hrow, hwritten, htail]

theorem form?_of_operate {op : Operator} {a b c : Text} (hop : m.operator? = some op)
    (h : s.operate op a b c = .ok i) : s.form? m [a, b, c] = some i.form := by
  obtain ⟨dr, hdr, h⟩ := bind_eq_ok.mp h
  obtain ⟨sr, hsr, h⟩ := bind_eq_ok.mp h
  have hwritten := Register.parseAll?_two hdr hsr
  have hrow := Mnemonic.row?_of_operator hop
  cases c with
  | nil => cases h
  | cons g rest =>
    simp only at h
    split at h
    · rename_i hregister
      obtain ⟨sr2, hsr2, h⟩ := bind_eq_ok.mp h
      cases h
      refine form?_of_row [a, b] _ hrow hwritten ?_
      simp [tail?, Text.startsRegister, hregister, hsr2, Except.toOption]
    · rename_i hregister
      obtain ⟨imm, himm, h⟩ := bind_eq_ok.mp h
      cases h
      refine form?_of_row [a, b] _ hrow hwritten ?_
      simp [tail?, Text.startsRegister, hregister, number_of_signed (by decide) himm,
        Except.toOption]

/-- The instruction of a statement has the form that the table gives. -/
theorem form?_of_instruction {operands : List Text} (h : s.instruction m operands = .ok i) :
    s.form? m operands = some i.form := by
  unfold instruction at h
  split at h
  · -- `NOT`
    obtain ⟨dr, hdr, h⟩ := bind_eq_ok.mp h
    obtain ⟨sr, hsr, h⟩ := bind_eq_ok.mp h
    cases h
    exact form?_of_row [_, _] [] rfl (Register.parseAll?_two hdr hsr) rfl
  · -- `NOP`
    cases h
    rfl
  · -- `JMP`
    obtain ⟨base, hbase, h⟩ := bind_eq_ok.mp h
    cases h
    exact form?_of_row [_] [] rfl (Register.parseAll?_one hbase) rfl
  · -- `RET`
    cases h
    rfl
  · -- `JSR`
    obtain ⟨offset, hoffset, h⟩ := bind_eq_ok.mp h
    cases h
    exact form?_of_row [] [_] rfl rfl (tail?_offset hoffset)
  · -- `JSRR`
    obtain ⟨base, hbase, h⟩ := bind_eq_ok.mp h
    cases h
    exact form?_of_row [_] [] rfl (Register.parseAll?_one hbase) rfl
  · -- `LEA`
    obtain ⟨dr, hdr, h⟩ := bind_eq_ok.mp h
    obtain ⟨offset, hoffset, h⟩ := bind_eq_ok.mp h
    cases h
    exact form?_of_row [_] [_] rfl (Register.parseAll?_one hdr) (tail?_offset hoffset)
  · -- `TRAP`
    obtain ⟨vector, hvector, h⟩ := bind_eq_ok.mp h
    cases h
    exact form?_of_row [] [_] rfl rfl (tail?_unsigned hvector)
  · -- `HALT`
    cases h
    rfl
  · -- `RTI`
    cases h
    rfl
  · -- the branches
    split at h
    · rename_i flags hflags
      obtain ⟨offset, hoffset, h⟩ := bind_eq_ok.mp h
      cases h
      exact form?_of_row [] [_] (Mnemonic.row?_of_flags hflags) rfl (tail?_offset hoffset)
    · cases h
  · -- three operands
    split at h
    · rename_i op hop
      exact form?_of_operate hop h
    · rename_i kind hkind _
      obtain ⟨r, hr, h⟩ := bind_eq_ok.mp h
      obtain ⟨base, hbase, h⟩ := bind_eq_ok.mp h
      obtain ⟨offset, hoffset, h⟩ := bind_eq_ok.mp h
      cases h
      exact form?_of_row [_, _] [_] (Mnemonic.row?_of_access hkind)
        (Register.parseAll?_two hr hbase) (tail?_signed hoffset)
    · rename_i kind hkind _ _
      obtain ⟨dr, hdr, h⟩ := bind_eq_ok.mp h
      obtain ⟨sr, hsr, h⟩ := bind_eq_ok.mp h
      obtain ⟨amount, hamount, h⟩ := bind_eq_ok.mp h
      cases h
      exact form?_of_row [_, _] [_] (Mnemonic.row?_of_shift hkind)
        (Register.parseAll?_two hdr hsr) (tail?_unsigned hamount)
    · cases h
  · cases h

theorem words_keyword {st : Statement} (hst : st.operation = .keyword m)
    (hm : m.isDirective = false) :
    s.words st = s.encode m st.operands >>= fun word => .ok [word] := by
  unfold Scope.words
  rw [hst]
  cases m <;> first | rfl | cases hm

theorem instruction_of_words {st : Statement} {words : List UInt16}
    (hst : st.operation = .keyword m) (hm : m.isDirective = false) (h : s.words st = .ok words) :
    ∃ i, s.instruction m st.operands = .ok i ∧ words = [i.word] := by
  rw [words_keyword hst hm, encode_eq] at h
  obtain ⟨word, hword, h⟩ := bind_eq_ok.mp h
  obtain ⟨i, hi, rfl⟩ := map_eq_ok.mp hword
  exact ⟨i, hi, (Except.ok.inj h).symm⟩

end Scope

/-- Words of instructions can be read back. A statement with the keyword of an instruction has one
word; what `decode?` finds in it, with all bits that no field uses zero, is what the table makes of
the keyword and of the operands as they are read. And in one scope two such statements have the same
word exactly if the table makes the same of both. -/
theorem word_of_instruction_decodes [Interpreter] (scope : Scope) (st : Statement) (m : Mnemonic)
    (words : List UInt16) (hst : st.operation = .keyword m) (hm : m.isDirective = false)
    (h : scope.words st = .ok words) :
    (∃ w i, words = [w] ∧ Instruction.decode? w.toBitVec = some i ∧ i.bits = w.toBitVec ∧
      scope.form? m st.operands = some i.form) ∧
    ∀ (st' : Statement) (m' : Mnemonic) (words' : List UInt16), st'.operation = .keyword m' →
      m'.isDirective = false → scope.words st' = .ok words' →
      (words = words' ↔ scope.form? m st.operands = scope.form? m' st'.operands) := by
  obtain ⟨i, hi, rfl⟩ := Scope.instruction_of_words hst hm h
  refine ⟨⟨i.word, i, rfl, i.decode?_word, i.toBitVec_word.symm,
    Scope.form?_of_instruction hi⟩, ?_⟩
  intro st' m' words' hst' hm' h'
  obtain ⟨j, hj, rfl⟩ := Scope.instruction_of_words hst' hm' h'
  rw [Scope.form?_of_instruction hi, Scope.form?_of_instruction hj]
  constructor
  · intro hwords
    rw [Instruction.word_injective (List.singleton_inj.mp hwords)]
  · intro hforms
    rw [Instruction.form_injective (Option.some.inj hforms)]

/-- A statement with a keyword and operands and nothing else. -/
def Statement.ofOperands (m : Mnemonic) (operands : List Text) : Statement :=
  ⟨⟨1, []⟩, none, .keyword m, operands⟩

/-- `NOT` is read back as `XOR` with minus one, and has the word of the `XOR` that says so. -/
theorem word_of_instruction_decodes_not :
    let scope : Scope := ⟨.empty, 0x3000, 1⟩
    let complement := Statement.ofOperands .not ["R5", "r2"]
    let spelled := Statement.ofOperands .xor ["R5", "R2", "$(PC - 0x3001)"]
    scope.words complement = .ok [0x9ABF] ∧ scope.words spelled = .ok [0x9ABF] ∧
      (∃ i, Instruction.decode? 0x9ABF = some i ∧
        i.form = ⟨.operate .xor, [5, 2], some (-1)⟩) ∧
      scope.form? .not complement.operands = scope.form? .xor spelled.operands := by
  intro scope complement spelled
  have hcomplement : scope.words complement = .ok [0x9ABF] :=
    eq_ok_of_toOption (by decide +kernel)
  have hspelled : scope.words spelled = .ok [0x9ABF] := eq_ok_of_toOption (by decide +kernel)
  have hform : scope.form? .not complement.operands =
      some ⟨.operate .xor, [5, 2], some (-1)⟩ := by decide +kernel
  obtain ⟨⟨w, i, hw, hdecode, -, hi⟩, hsame⟩ :=
    word_of_instruction_decodes scope complement .not [0x9ABF] rfl rfl hcomplement
  cases hw
  refine ⟨hcomplement, hspelled, ⟨i, hdecode, ?_⟩, ?_⟩
  · exact (Option.some.inj (hform.symm.trans hi)).symm
  · exact (hsame spelled .xor [0x9ABF] rfl rfl hspelled).mp rfl

end LittleComputer
