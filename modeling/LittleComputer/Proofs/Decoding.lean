import LittleComputer.Encoding

/-!
# Words read back

Shifting the fields of an instruction to their places and joining them puts them side by side, so
`Instruction.word` holds `Instruction.bits`, and each field can be cut out again. The opcode says
which fields there are, and the bits between them are zero. Hence `Instruction.decode?` gives back
the instruction that a word was made from.

The words of the aliases are written out in `Scope.encode`; by `Scope.encode_eq` they are the words
of the instructions that the aliases stand for.
-/

namespace LittleComputer

namespace Instruction

open BitVec

/-- Bits side by side are bits that were shifted and joined. -/
theorem setWidth_append_eq_or {m n : Nat} (x : BitVec m) (y : BitVec n) :
    (x ++ y).setWidth 16 = x.setWidth 16 <<< n ||| y.setWidth 16 := by
  apply BitVec.eq_of_getLsbD_eq
  intro i hi
  simp only [getLsbD_setWidth, getLsbD_or, getLsbD_shiftLeft, getLsbD_append, hi, decide_true,
    Bool.true_and]
  by_cases hlow : i < n
  · simp [hlow]
  · have hy : y.getLsbD i = false := getLsbD_of_ge y i (by omega)
    have hx : i - n < 16 := by omega
    simp [hlow, hy, hx]

/-- A field below the opcode is not cut off. -/
theorem shiftLeft_and_mask {n k : Nat} (value : BitVec n) (h : n + k ≤ 12) :
    (value.setWidth 16 <<< k) &&& 0x0fff#16 = value.setWidth 16 <<< k := by
  have hmask : 0x0fff#16 = (allOnes 12).setWidth 16 := by decide
  apply BitVec.eq_of_getLsbD_eq
  intro i hi
  simp only [hmask, getLsbD_and, getLsbD_setWidth, getLsbD_shiftLeft, getLsbD_allOnes, hi,
    decide_true, Bool.true_and]
  by_cases hlow : i < 12
  · simp [hlow]
  · have hvalue : value.getLsbD (i - k) = false := getLsbD_of_ge value _ (by omega)
    simp [hvalue]

theorem and_mask {n : Nat} (value : BitVec n) (h : n ≤ 12) :
    value.setWidth 16 &&& 0x0fff#16 = value.setWidth 16 := by
  simpa using shiftLeft_and_mask (k := 0) value h

@[simp]
theorem toBitVec_field {n : Nat} (value : BitVec n) :
    (field value).toBitVec = value.setWidth 16 :=
  rfl

/-- The word holds the fields of the instruction side by side. -/
theorem toBitVec_word (i : Instruction) : i.word.toBitVec = i.bits := by
  rw [← setWidth_eq i.bits]
  cases i with
  | call offset =>
    have hopcode : 0x4#4 ++ 1#1 = 0x9#5 := by decide
    simp only [bits, hopcode, setWidth_append_eq_or]
    simp [word, pack, and_or_distrib_right, and_mask, ← BitVec.or_assoc]
  | _ =>
    -- Both sides come down to the same shifted fields, in the same order.
    simp only [bits, setWidth_append_eq_or, shiftLeft_or_distrib, ← shiftLeft_add]
    simp [word, pack, and_or_distrib_right, and_mask, shiftLeft_and_mask, BitVec.or_assoc]

theorem complementWord_eq (dr sr : Register) :
    complementWord dr sr = (operateImmediate .xor dr sr (-1)).word := by
  apply UInt16.toBitVec_inj.mp
  simp [complementWord, word, pack, Operator.opcode, and_or_distrib_right, shiftLeft_and_mask,
    BitVec.or_assoc]

/-- The top four bits choose the format. -/
def opcode : Instruction → BitVec 4
  | .operateRegister op _ _ _ | .operateImmediate op _ _ _ => op.opcode
  | .branch _ _ => 0x0#4
  | .jump _ => 0xC#4
  | .call _ | .callRegister _ => 0x4#4
  | .access kind _ _ _ => kind.opcode
  | .loadAddress _ _ => 0xE#4
  | .shift _ _ _ _ => 0xD#4
  | .trap _ => 0xF#4
  | .returnFromInterrupt => 0x8#4

theorem opcode_bits (i : Instruction) : i.bits.extractLsb' 12 4 = i.opcode := by
  cases i with
  | returnFromInterrupt => decide
  | _ =>
    simp (disch := decide) only [bits, opcode, extractLsb'_append_eq_of_le, Nat.reduceSub,
      extractLsb'_eq_self]

theorem decodeOperate?_register (op : Operator) (dr sr1 sr2 : Register) :
    decodeOperate? op (operateRegister op dr sr1 sr2).bits =
      some (.operateRegister op dr sr1 sr2) := by
  have hbit : (operateRegister op dr sr1 sr2).bits.getLsbD 5 = false := by
    simp only [bits, getLsbD_append]
    rfl
  have hzero : (operateRegister op dr sr1 sr2).bits.extractLsb' 3 3 = 0 := by
    simp (disch := decide) only [bits, extractLsb'_append_eq_of_le, extractLsb'_append_eq_of_add_le,
      Nat.reduceSub, extractLsb'_eq_self]
    rfl
  unfold decodeOperate?
  simp only [hbit, hzero, Bool.false_eq_true, if_false, if_true]
  simp (disch := decide) only [bits, extractLsb'_append_eq_of_le, extractLsb'_append_eq_of_add_le,
    Nat.reduceSub, extractLsb'_eq_self]

theorem decodeOperate?_immediate (op : Operator) (dr sr1 : Register) (value : BitVec 5) :
    decodeOperate? op (operateImmediate op dr sr1 value).bits =
      some (.operateImmediate op dr sr1 value) := by
  have hbit : (operateImmediate op dr sr1 value).bits.getLsbD 5 = true := by
    simp only [bits, getLsbD_append]
    rfl
  unfold decodeOperate?
  simp only [hbit, if_true]
  simp (disch := decide) only [bits, extractLsb'_append_eq_of_le, extractLsb'_append_eq_of_add_le,
    Nat.reduceSub, extractLsb'_eq_self]

theorem decodeAccess_bits (kind : Access) (r base : Register) (offset : BitVec 6) :
    decodeAccess kind (access kind r base offset).bits = .access kind r base offset := by
  simp (disch := decide) only [decodeAccess, bits, extractLsb'_append_eq_of_le,
    extractLsb'_append_eq_of_add_le, Nat.reduceSub, extractLsb'_eq_self]

/-- A base register alone: the bits on both sides of it are zero. -/
theorem decodeBase?_append (make : Register → Instruction) (code : BitVec 4) (base : Register) :
    decodeBase? make (code ++ 0#3 ++ base ++ 0#6) = some (make base) := by
  have hhigh : extractLsb' 9 3 (code ++ 0#3 ++ base ++ 0#6) = 0#3 := by
    simp (disch := decide) only [extractLsb'_append_eq_of_le, extractLsb'_append_eq_of_add_le,
      Nat.reduceSub, extractLsb'_eq_self]
  have hbase : extractLsb' 6 3 (code ++ 0#3 ++ base ++ 0#6) = base := by
    simp (disch := decide) only [extractLsb'_append_eq_of_le, extractLsb'_append_eq_of_add_le,
      Nat.reduceSub, extractLsb'_eq_self]
  have hlow : extractLsb' 0 6 (code ++ 0#3 ++ base ++ 0#6) = 0#6 := by
    simp (disch := decide) only [extractLsb'_append_eq_of_add_le, extractLsb'_eq_self]
  unfold decodeBase?
  rw [hhigh, hbase, hlow]
  exact if_pos ⟨rfl, rfl⟩

theorem decodeShift?_bits (kind : Shift) (dr sr : Register) (amount : BitVec 4) :
    decodeShift? (shift kind dr sr amount).bits = some (.shift kind dr sr amount) := by
  have hcode : (shift kind dr sr amount).bits.extractLsb' 4 2 = kind.code := by
    simp (disch := decide) only [bits, extractLsb'_append_eq_of_le, extractLsb'_append_eq_of_add_le,
      Nat.reduceSub, extractLsb'_eq_self]
  have hfields : ∀ k, Instruction.shift k ((shift kind dr sr amount).bits.extractLsb' 9 3)
      ((shift kind dr sr amount).bits.extractLsb' 6 3)
      ((shift kind dr sr amount).bits.extractLsb' 0 4) = .shift k dr sr amount := by
    intro k
    simp (disch := decide) only [bits, extractLsb'_append_eq_of_le, extractLsb'_append_eq_of_add_le,
      Nat.reduceSub, extractLsb'_eq_self]
  unfold decodeShift?
  simp only [hcode, hfields]
  cases kind <;> rfl

/-- Every instruction can be read back from its bits. -/
theorem decode?_bits (i : Instruction) : decode? i.bits = some i := by
  unfold decode?
  rw [opcode_bits]
  cases i with
  | operateRegister op dr sr1 sr2 =>
    have h := decodeOperate?_register op dr sr1 sr2
    cases op <;> exact h
  | operateImmediate op dr sr1 value =>
    have h := decodeOperate?_immediate op dr sr1 value
    cases op <;> exact h
  | branch flags offset =>
    change some (branch _ _) = _
    simp (disch := decide) only [bits, extractLsb'_append_eq_of_le, extractLsb'_append_eq_of_add_le,
      Nat.reduceSub, extractLsb'_eq_self]
  | jump base => exact decodeBase?_append .jump 0xC#4 base
  | call offset =>
    have hbit : (call offset).bits.getLsbD 11 = true := by
      simp only [bits, getLsbD_append]
      rfl
    change (if (call offset).bits.getLsbD 11 then some (call _) else _) = _
    rw [if_pos hbit]
    simp (disch := decide) only [bits, extractLsb'_append_eq_of_add_le, extractLsb'_eq_self]
  | callRegister base =>
    have hbit : (callRegister base).bits.getLsbD 11 = false := by
      simp only [bits, getLsbD_append]
      rfl
    change (if (callRegister base).bits.getLsbD 11 then _ else decodeBase? .callRegister _) = _
    rw [if_neg (by rw [hbit]; nofun)]
    exact decodeBase?_append .callRegister 0x4#4 base
  | access kind r base offset =>
    have h := decodeAccess_bits kind r base offset
    cases kind <;> exact congrArg some h
  | loadAddress dr offset =>
    change some (loadAddress _ _) = _
    simp (disch := decide) only [bits, extractLsb'_append_eq_of_le, extractLsb'_append_eq_of_add_le,
      Nat.reduceSub, extractLsb'_eq_self]
  | shift kind dr sr amount => exact decodeShift?_bits kind dr sr amount
  | trap vector =>
    have hzero : (trap vector).bits.extractLsb' 8 4 = 0 := by
      simp (disch := decide) only [bits, extractLsb'_append_eq_of_le,
        extractLsb'_append_eq_of_add_le, Nat.reduceSub, extractLsb'_eq_self]
      rfl
    change (if (trap vector).bits.extractLsb' 8 4 = 0 then some (trap _) else none) = _
    rw [if_pos hzero]
    simp (disch := decide) only [bits, extractLsb'_append_eq_of_add_le, extractLsb'_eq_self]
  | returnFromInterrupt => rfl

theorem decode?_word (i : Instruction) : decode? i.word.toBitVec = some i := by
  rw [toBitVec_word, decode?_bits]

theorem word_injective {i j : Instruction} (h : i.word = j.word) : i = j := by
  have hdecoded := decode?_word i
  rw [h, decode?_word j] at hdecoded
  exact (Option.some.inj hdecoded).symm

end Instruction

/-- An alias with a fixed word stands for an instruction of that word. -/
theorem Scope.instruction_of_fixedWord? [Interpreter] (scope : Scope) {m : Mnemonic} {word : UInt16}
    (h : m.fixedWord? = some word) : ∃ i, scope.instruction m [] = .ok i ∧ i.word = word := by
  cases m <;> cases h
  · exact ⟨.branch 0 0, rfl, by decide⟩
  · exact ⟨.jump 7, rfl, by decide⟩
  · exact ⟨.trap 0x25, rfl, by decide⟩
  · exact ⟨.returnFromInterrupt, rfl, rfl⟩

/-- A keyword is encoded as the word of its instruction, whether that word is written out or not. -/
theorem Scope.encode_eq [Interpreter] (scope : Scope) (m : Mnemonic) (operands : List Text) :
    scope.encode m operands = Instruction.word <$> scope.instruction m operands := by
  unfold encode
  split
  next hfixed =>
    obtain ⟨i, hi, rfl⟩ := scope.instruction_of_fixedWord? hfixed
    rw [hi]
    rfl
  next target source _ =>
    simp only [instruction, Instruction.complementWord_eq, map_bind, map_pure]
  next => rfl

end LittleComputer
