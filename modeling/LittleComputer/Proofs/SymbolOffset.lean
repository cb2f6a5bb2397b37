import LittleComputer.Proofs.InstructionTable
import LittleComputer.Proofs.Tiling

/-!
# Offsets to symbols

An operand that names a symbol stands for the words between the end of its statement and the symbol,
kept in two's complement. A symbol at an odd distance is counted from the word below it, in both
directions. The range of the field is exact at both ends, and a distance beyond it is a fault that
tells the distance.
-/

namespace LittleComputer

open Outcome

namespace Field

/-- The bits that hold a value are the lowest bits of its word. -/
theorem toNat_ofInt_mask {bits : Nat} (hbits : bits ≤ 16) (v : Int) :
    (BitVec.ofInt bits v).toNat = (BitVec.ofInt 16 v).toNat &&& (signed bits).mask := by
  have hmask : (signed bits).mask = 2 ^ bits - 1 := rfl
  have hdvd : ((2 ^ bits : Nat) : Int) ∣ ((2 ^ 16 : Nat) : Int) :=
    Int.natCast_dvd_natCast.mpr (Nat.pow_dvd_pow 2 hbits)
  have hpos := Nat.two_pow_pos bits
  have hrest : 0 ≤ v % ((2 ^ bits : Nat) : Int) := Int.emod_nonneg _ (by omega)
  have hword : 0 ≤ v % ((2 ^ 16 : Nat) : Int) := Int.emod_nonneg _ (by omega)
  rw [hmask, Nat.and_two_pow_sub_one_eq_mod, BitVec.toNat_ofInt, BitVec.toNat_ofInt]
  apply Int.natCast_inj.mp
  rw [Int.natCast_emod, Int.toNat_of_nonneg hrest, Int.toNat_of_nonneg hword,
    Int.emod_emod_of_dvd v hdvd]

end Field

namespace Scope

variable {scope : Scope} {word : Text} {target : UInt16}

theorem distance_eq_fdiv (scope : Scope) (target : UInt16) :
    scope.distance target = Int.fdiv (target.toNat - (scope.address + 2)) 2 :=
  (Int.fdiv_eq_ediv_of_nonneg _ (by decide)).symm

/-- The statement stands at an address, or behind the last one. -/
def HasAddress (scope : Scope) : Prop := 0 ≤ scope.address ∧ scope.address ≤ addressLimit

instance (scope : Scope) : Decidable scope.HasAddress := instDecidableAnd

/-- The bytes between two addresses can be counted in 64 bits, so a distance is told as it is. Far
from all addresses the count would wrap around. -/
theorem distanceTold_eq (h : scope.HasAddress) (target : UInt16) :
    scope.distanceTold target = scope.distance target := by
  have htarget : target.toNat < 65536 := target.toNat_lt
  obtain ⟨hleast, hgreatest⟩ := h
  simp only [addressLimit] at hgreatest
  unfold distanceTold distance
  rw [Int.bmod_eq_of_le (by omega) (by omega)]

variable [Interpreter]

/-- What becomes of an operand that names a symbol. -/
theorem offset_of_lookup (bits : Nat) (h : scope.symbols.lookup? word = some target) :
    scope.offset bits word =
      if (Field.signed bits).Accepts (scope.distance target) then
        .ok (BitVec.ofInt bits (scope.distance target))
      else .error (.offsetRange (scope.distanceTold target) bits) := by
  unfold offset
  rw [h]

theorem offset_eq_ok_of_lookup {bits : Nat} (h : scope.symbols.lookup? word = some target)
    {b : BitVec bits} :
    scope.offset bits word = .ok b ↔
      (Field.signed bits).Accepts (scope.distance target) ∧
        BitVec.ofInt bits (scope.distance target) = b := by
  rw [offset_of_lookup bits h]
  by_cases haccepts : (Field.signed bits).Accepts (scope.distance target)
  · simp [haccepts]
  · simp [haccepts]

end Scope

/-! ## The scopes of the second pass -/

namespace Encoding

variable [Interpreter]

/-- The scopes in which the second pass reads operands: behind the origin that a statement sets and
behind its label. -/
def scopes (symbols : SymbolTable) (statements : List Statement) : List Scope :=
  (walk symbols statements).visits.filterMap fun (e, s) =>
    (e.mark symbols s).toOption.map fun marked => marked.scope symbols s

theorem hasAddress_of_mem_scopes {symbols : SymbolTable} {statements : List Statement}
    {scope : Scope}
    (h : scope ∈ scopes symbols statements) : scope.HasAddress := by
  obtain ⟨⟨e, s⟩, hvisit, hscope⟩ := List.mem_filterMap.mp h
  obtain ⟨marked, hmark, rfl⟩ := Option.map_eq_some_iff.mp hscope
  have htiled : Tiled e := Walk.keeps_at_visits (fun _ _ _ => tiled_step) tiled_start hvisit
  have hmarked := tiled_mark htiled (eq_ok_of_toOption hmark)
  exact ⟨Int.natCast_nonneg _, Int.ofNat_le.mpr hmarked.limit⟩

end Encoding

/-- Offsets to symbols are exact. With `d` the distance in words from the end of the statement to
the symbol, rounded down, there is an offset exactly if `d` fits the field. It then is `d` in two's
complement, the lowest bits of the word that holds `d`, and leads back to the symbol if both
addresses are even. Otherwise the fault tells `d` and the width of the field. This holds in all
scopes of statements that have an address, and the second pass has no others. -/
theorem symbol_offset_is_exact [Interpreter] :
    (∀ (symbols : SymbolTable) (statements : List Statement),
      ∀ scope ∈ Encoding.scopes symbols statements, scope.HasAddress) ∧
    ∀ (scope : Scope), scope.HasAddress → ∀ bits : Nat, 1 ≤ bits → bits ≤ 16 →
      ∀ (word : Text) (target : UInt16), scope.symbols.lookup? word = some target →
      let d := Int.fdiv (target.toNat - (scope.address + 2)) 2
      let Fits (v : Int) := -(Nat.pow 2 (bits - 1) : Int) ≤ v ∧ v ≤ Nat.pow 2 (bits - 1) - 1
      ((∃ b, scope.offset bits word = .ok b) ↔ Fits d) ∧
      (∀ b, scope.offset bits word = .ok b →
        b.toNat < Nat.pow 2 bits ∧ b.toInt = d ∧
        b.toNat = (BitVec.ofInt 16 d).toNat &&& (Field.signed bits).mask ∧
        (target.toNat % 2 = 0 → scope.address % 2 = 0 →
          2 * d + scope.address + 2 = target.toNat)) ∧
      (¬ Fits d → scope.offset bits word = .error (.offsetRange d bits)) := by
  refine ⟨fun symbols statements scope => Encoding.hasAddress_of_mem_scopes, ?_⟩
  intro scope haddress bits hleast hgreatest word target hword d Fits
  have hd : scope.distance target = d := scope.distance_eq_fdiv target
  have hok (b : BitVec bits) : scope.offset bits word = .ok b ↔
      Fits d ∧ BitVec.ofInt bits d = b :=
    hd ▸ Scope.offset_eq_ok_of_lookup hword
  refine ⟨⟨?_, fun hfits => ⟨_, (hok _).mpr ⟨hfits, rfl⟩⟩⟩, fun b hb => ?_,
    fun hbeyond => ?_⟩
  · rintro ⟨b, hb⟩
    exact ((hok b).mp hb).1
  · obtain ⟨hfits, rfl⟩ := (hok b).mp hb
    refine ⟨BitVec.isLt _, Field.toInt_of_accepts_signed hleast hfits,
      Field.toNat_ofInt_mask hgreatest d, fun heven heven' => ?_⟩
    -- nothing is lost in halving a distance between even addresses
    rw [← hd]
    unfold Scope.distance
    omega
  · rw [Scope.offset_of_lookup bits hword, Scope.distanceTold_eq haddress, hd]
    exact if_neg hbeyond

/-- The first word that nine bits reach backward, an odd symbol right before the statement, and an
odd one just out of reach. -/
theorem symbol_offset_is_exact_backward :
    let symbols :=
      ((SymbolTable.empty.assign "First" 0x2E02).assign "Odd" 0x2FFF).assign "Out" 0x2E01
    let scope : Scope := ⟨symbols, 0x3000, 1⟩
    (∃ b, scope.offset 9 "first" = .ok b ∧ b.toInt = -256) ∧
      (∃ b, scope.offset 9 "odd" = .ok b ∧ b.toInt = -2) ∧
      scope.offset 9 "out" = .error (.offsetRange (-257) 9) := by
  intro symbols scope
  have hexact := symbol_offset_is_exact.2 scope (by decide) 9 (by decide) (by decide)
  have hfirst := hexact "first" 0x2E02 (by decide)
  have hodd := hexact "odd" 0x2FFF (by decide)
  have hout := hexact "out" 0x2E01 (by decide)
  obtain ⟨b, hb⟩ := hfirst.1.mpr (by decide)
  obtain ⟨c, hc⟩ := hodd.1.mpr (by decide)
  exact ⟨⟨b, hb, (hfirst.2.1 b hb).2.1⟩, ⟨c, hc, (hodd.2.1 c hc).2.1⟩,
    hout.2.2 (by decide)⟩

-- A scope built by hand can be far from all addresses. There the way to the last word is told as
-- one backward.
example : (Scope.mk (SymbolTable.empty.assign "TOP" 0xFFFE) (-0x8000000000000000) 1).distanceTold
    0xFFFE = -4611686018427355138 := by decide

end LittleComputer
