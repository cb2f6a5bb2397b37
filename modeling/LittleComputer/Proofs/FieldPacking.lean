import LittleComputer.Operand.Field64
import LittleComputer.Proofs.SymbolOffset

/-!
# Packing into fields

Up to the width of a word, cutting a number of 64 bits to sixteen and masking the rest is the same
as taking its bits modulo the size of the field, for both signs. So a `Field64` packs as the `Field`
with the same range does, no bit above the field is set, and what was packed can be read back.
-/

namespace LittleComputer

namespace Field64

variable {f : Field64} {bits : Nat} {v : Int64} {w : UInt16}

/-- The field of integers with the same range. -/
def toField (f : Field64) : Field := ⟨f.bits, f.least.toInt, f.greatest.toInt⟩

/-! ## Shifts -/

theorem pow_le {n : Nat} (hn : n ≤ 16) :
    Nat.pow 2 n ≤ 0x10000 := Nat.pow_le_pow_right (by decide) hn

theorem toInt_shifted {n : Nat} (hn : n ≤ 16) :
    (Int64.ofBitVec (1#64 <<< n)).toInt = Nat.pow 2 n := by
  have hpow := pow_le hn
  have hshift : (1#64).toNat <<< n = Nat.pow 2 n := Nat.one_shiftLeft n
  rw [Int64.toInt_ofBitVec, BitVec.toInt_shiftLeft, hshift]
  apply Int.bmod_eq_of_le <;> omega

theorem toInt_shifted_neg {n : Nat} (hn : n ≤ 16) :
    (-Int64.ofBitVec (1#64 <<< n)).toInt = -(Nat.pow 2 n : Int) := by
  have hpow := pow_le hn
  rw [Int64.toInt_neg, toInt_shifted hn]
  apply Int.bmod_eq_of_le <;> omega

theorem toInt_shifted_sub_one {n : Nat} (hn : n ≤ 16) :
    (Int64.ofBitVec (1#64 <<< n) - 1).toInt = Nat.pow 2 n - 1 := by
  have hpow := pow_le hn
  have hone : (1 : Int64).toInt = 1 := by decide
  rw [Int64.toInt_sub, toInt_shifted hn, hone]
  apply Int.bmod_eq_of_le <;> omega

theorem toField_signed (hbits : bits ≤ 16) : (signed bits).toField = Field.signed bits := by
  have hn : bits - 1 ≤ 16 := by omega
  simp only [toField, signed, Field.signed, toInt_shifted_neg hn, toInt_shifted_sub_one hn]

theorem toField_unsigned (hbits : bits ≤ 16) : (unsigned bits).toField = Field.unsigned bits := by
  have hzero : (0 : Int64).toInt = 0 := by decide
  simp only [toField, unsigned, Field.unsigned, toInt_shifted_sub_one hbits, hzero]

theorem toField_word : word.toField = Field.word := by decide

theorem toNat_mask (hbits : f.bits ≤ 16) : f.mask.toNat = f.toField.mask := by
  have hpos : 0 < Nat.pow 2 f.bits := Nat.two_pow_pos f.bits
  have hpow := pow_le hbits
  -- of 32 bits, the shifted one is not lost even where the field is a whole word
  have hshift : (UInt32.ofBitVec (1#32 <<< f.bits)).toNat = Nat.pow 2 f.bits := by
    show (1#32 <<< f.bits).toNat = Nat.pow 2 f.bits
    rw [BitVec.toNat_shiftLeft,
      show (1#32).toNat <<< f.bits = Nat.pow 2 f.bits from Nat.one_shiftLeft f.bits]
    omega
  have hone : (1 : UInt32) ≤ UInt32.ofBitVec (1#32 <<< f.bits) := by
    rw [UInt32.le_iff_toNat_le, hshift]
    exact hpos
  show (UInt32.ofBitVec (1#32 <<< f.bits) - 1).toUInt16.toNat = Nat.pow 2 f.bits - 1
  rw [UInt32.toNat_toUInt16, UInt32.toNat_sub_of_le _ _ hone, hshift, UInt32.toNat_one]
  omega

/-! ## Cutting and masking -/

theorem toNat_cut (v : Int64) : v.toUInt64.toUInt16.toNat = (BitVec.ofInt 16 v.toInt).toNat := by
  have hbits : BitVec.ofInt 64 v.toInt = v.toBitVec := BitVec.ofInt_toInt
  have hword : v.toUInt64.toUInt16.toNat = (BitVec.ofInt 64 v.toInt).toNat % 2 ^ 16 := by
    rw [hbits]
    exact UInt64.toNat_toUInt16 _
  rw [hword, BitVec.toNat_ofInt, BitVec.toNat_ofInt]
  -- a negative number went around at 64 bits, which is a multiple of going around at sixteen
  omega

/-- The mask leaves the bits of a field and nothing else of a number. -/
theorem toNat_cut_and_mask (hbits : f.bits ≤ 16) (v : Int64) :
    (v.toUInt64.toUInt16 &&& f.mask).toNat = (BitVec.ofInt f.bits v.toInt).toNat := by
  rw [UInt16.toNat_and, toNat_mask hbits, toNat_cut]
  exact (Field.toNat_ofInt_mask hbits v.toInt).symm

theorem accepts_toField (f : Field64) (v : Int64) :
    f.toField.Accepts v.toInt ↔ ¬ (v < f.least ∨ f.greatest < v) := by
  rw [Int64.lt_iff_toInt_lt, Int64.lt_iff_toInt_lt]
  unfold Field.Accepts toField
  simp only
  omega

theorem pack_eq_ok (hbits : f.bits ≤ 16) :
    f.pack v = .ok w ↔
      f.toField.Accepts v.toInt ∧ w.toNat = (BitVec.ofInt f.bits v.toInt).toNat := by
  rw [accepts_toField, ← toNat_cut_and_mask hbits v, UInt16.toNat_inj]
  unfold pack
  by_cases hbeyond : v < f.least ∨ f.greatest < v
  · simp [hbeyond]
  · simp [hbeyond, eq_comm]

theorem pack_eq_error {fault : Fault} :
    f.pack v = .error fault ↔
      ¬ f.toField.Accepts v.toInt ∧
        fault = .immediateRange v.toInt f.toField.least f.toField.greatest := by
  rw [accepts_toField]
  unfold pack toField
  by_cases hbeyond : v < f.least ∨ f.greatest < v
  · simp [hbeyond, eq_comm]
  · simp [hbeyond]

/-- A field of 64-bit numbers that is no wider than a word packs as the one of integers does. -/
theorem pack_eq (hbits : f.bits ≤ 16) (v : Int64) :
    f.pack v = (fun b => UInt16.ofBitVec (b.setWidth 16)) <$> f.toField.pack v.toInt := by
  unfold Field.pack
  by_cases haccepts : f.toField.Accepts v.toInt
  · have hlt : (BitVec.ofInt f.bits v.toInt).toNat < 2 ^ 16 :=
      Nat.lt_of_lt_of_le (BitVec.isLt _) (pow_le hbits)
    rw [if_pos haccepts]
    refine (pack_eq_ok hbits).mpr ⟨haccepts, ?_⟩
    show ((BitVec.ofInt f.bits v.toInt).setWidth 16).toNat = _
    rw [BitVec.toNat_setWidth, Nat.mod_eq_of_lt hlt]
  · rw [if_neg haccepts]
    exact pack_eq_error.mpr ⟨haccepts, rfl⟩

/-! ## Reading back -/

/-- A value is packed exactly if it lies in a range. The word then is as told and has no bit above
the field, and otherwise the fault tells the value and the range. -/
structure PacksWithin (f : Field64) (least greatest : Int) (v : Int64) (Kept : UInt16 → Prop) :
    Prop where
  taken : (∃ w, f.pack v = .ok w) ↔ least ≤ v.toInt ∧ v.toInt ≤ greatest
  kept : ∀ w, f.pack v = .ok w → Kept w
  clear : ∀ w, f.pack v = .ok w → ∀ i, f.bits ≤ i → w.toNat.testBit i = false
  told : ∀ fault, f.pack v = .error fault → fault = .immediateRange v.toInt least greatest

theorem packsWithin {g : Field} (hfield : f.toField = g) (hbits : f.bits ≤ 16)
    {Kept : UInt16 → Prop}
    (hkept : ∀ w : UInt16, g.Accepts v.toInt → w.toNat = (BitVec.ofInt f.bits v.toInt).toNat →
      Kept w) :
    f.PacksWithin g.least g.greatest v Kept := by
  subst hfield
  refine ⟨⟨?_, fun haccepts => ?_⟩, fun w hw => ?_, fun w hw i hi => ?_,
    fun fault hfault => ?_⟩
  · rintro ⟨w, hw⟩
    exact ((pack_eq_ok hbits).mp hw).1
  · exact ⟨_, (pack_eq_ok hbits).mpr ⟨haccepts, toNat_cut_and_mask hbits v⟩⟩
  · obtain ⟨haccepts, htoNat⟩ := (pack_eq_ok hbits).mp hw
    exact hkept w haccepts htoNat
  · obtain ⟨-, htoNat⟩ := (pack_eq_ok hbits).mp hw
    rw [htoNat]
    exact Nat.testBit_lt_two_pow
      (Nat.lt_of_lt_of_le (BitVec.isLt _) (Nat.pow_le_pow_right (by decide) hi))
  · exact (pack_eq_error.mp hfault).2

theorem signExtend_of_accepts (hbits : 1 ≤ bits ∧ bits ≤ 16)
    (haccepts : (Field.signed bits).Accepts v.toInt)
    (hw : w.toNat = (BitVec.ofInt bits v.toInt).toNat) :
    Int64.ofBitVec ((w.toBitVec.setWidth bits).signExtend 64) = v := by
  have hpacked : w.toBitVec.setWidth bits = BitVec.ofInt bits v.toInt := by
    apply BitVec.eq_of_toNat_eq
    rw [BitVec.toNat_setWidth, UInt16.toNat_toBitVec, hw, Nat.mod_eq_of_lt (BitVec.isLt _)]
  have hvalue : (BitVec.ofInt bits v.toInt).toInt = v.toInt :=
    Field.toInt_of_accepts_signed hbits.1 haccepts
  apply Int64.toBitVec_inj.mp
  calc (w.toBitVec.setWidth bits).signExtend 64
      = BitVec.ofInt 64 (BitVec.ofInt bits v.toInt).toInt := by rw [hpacked]; rfl
    _ = BitVec.ofInt 64 v.toInt := by rw [hvalue]
    _ = v.toBitVec := BitVec.ofInt_toInt

theorem toNat_of_accepts_unsigned (haccepts : (Field.unsigned bits).Accepts v.toInt)
    (hw : w.toNat = (BitVec.ofInt bits v.toInt).toNat) : (w.toNat : Int) = v.toInt := by
  rw [hw]
  exact Field.toNat_of_pack_unsigned (if_pos haccepts)

theorem toNat_of_packed_word (hw : w.toNat = (BitVec.ofInt 16 v.toInt).toNat) :
    (w.toNat : Int) = v.toInt % 0x10000 := by
  rw [hw, BitVec.toNat_ofInt]
  omega

end Field64

/-- Packing is exact. For fields of up to sixteen bits and all numbers of 64 bits: a signed field
takes the numbers of its two's complement range, and extending the sign of what is packed gives the
number back; an unsigned field takes the numbers that its bits can count, and keeps them as they
are; a whole word takes both kinds and keeps them modulo its size. Nothing is set above the field,
and a number beyond it is told with the range. The fields of integers that programs are assembled
with pack the same words. -/
theorem packing_is_exact (bits : Nat) (hbits : 1 ≤ bits ∧ bits ≤ 16) (v : Int64) :
    let asWord {n : Nat} (b : BitVec n) := UInt16.ofBitVec (b.setWidth 16)
    (Field64.signed bits).PacksWithin (-(Nat.pow 2 (bits - 1) : Int)) (Nat.pow 2 (bits - 1) - 1) v
      (fun w => Int64.ofBitVec ((w.toBitVec.setWidth bits).signExtend 64) = v) ∧
    (Field64.unsigned bits).PacksWithin 0 (Nat.pow 2 bits - 1) v
      (fun w => (w.toNat : Int) = v.toInt) ∧
    Field64.word.PacksWithin (-32768) 65535 v (fun w => (w.toNat : Int) = v.toInt % 0x10000) ∧
    (Field64.signed bits).pack v = asWord <$> (Field.signed bits).pack v.toInt ∧
    (Field64.unsigned bits).pack v = asWord <$> (Field.unsigned bits).pack v.toInt ∧
    Field64.word.pack v = asWord <$> Field.word.pack v.toInt := by
  intro asWord
  have hsigned : (Field64.signed bits).toField = Field.signed bits := Field64.toField_signed hbits.2
  have hunsigned : (Field64.unsigned bits).toField = Field.unsigned bits :=
    Field64.toField_unsigned hbits.2
  refine ⟨?_, ?_, ?_, ?_, ?_, ?_⟩
  · exact Field64.packsWithin hsigned hbits.2 fun w => Field64.signExtend_of_accepts hbits
  · exact Field64.packsWithin hunsigned hbits.2 fun w => Field64.toNat_of_accepts_unsigned
  · exact Field64.packsWithin Field64.toField_word (Nat.le_refl 16) fun w _ =>
      Field64.toNat_of_packed_word
  · rw [← hsigned]
    exact Field64.pack_eq hbits.2 v
  · rw [← hunsigned]
    exact Field64.pack_eq hbits.2 v
  · rw [← Field64.toField_word]
    exact Field64.pack_eq (Nat.le_refl 16) v

/-- The ends of sixteen bits: the least signed number comes back, the first number that is too great
is told with the range, and a whole word keeps the least number as its highest bit. -/
theorem packing_is_exact_at_ends :
    (∃ w, (Field64.signed 16).pack (-32768) = .ok w ∧
      Int64.ofBitVec ((w.toBitVec.setWidth 16).signExtend 64) = -32768) ∧
    (Field64.unsigned 16).pack 65536 = .error (.immediateRange 65536 0 65535) ∧
    (∃ w, Field64.word.pack (-32768) = .ok w ∧ w.toNat = 32768) := by
  obtain ⟨hsigned, -, hword, -⟩ := packing_is_exact 16 (by decide) (-32768)
  obtain ⟨-, hunsigned, -⟩ := packing_is_exact 16 (by decide) 65536
  obtain ⟨w, hw⟩ := hsigned.taken.mpr (by decide)
  obtain ⟨x, hx⟩ := hword.taken.mpr (by decide)
  refine ⟨⟨w, hw, hsigned.kept w hw⟩, ?_, ⟨x, hx, ?_⟩⟩
  · cases hpack : (Field64.unsigned 16).pack 65536 with
    | ok y => exact absurd (hunsigned.taken.mp ⟨y, hpack⟩) (by decide)
    | error fault =>
      rw [hunsigned.told fault hpack]
      rfl
  · have hmod : (x.toNat : Int) = (-32768 : Int64).toInt % 0x10000 := hword.kept x hx
    have hvalue : (-32768 : Int64).toInt = -32768 := by decide
    omega

end LittleComputer
