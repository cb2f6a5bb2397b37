import LittleComputer.Proofs.Expression.Arithmetic
import LittleComputer.Proofs.ImageSource
import LittleComputer.Proofs.NumberGrammar
import LittleComputer.Proofs.Operand
import LittleComputer.Proofs.SymbolOffset

/-!
# Offsets written as expressions

The offset to a symbol can be calculated in an expression as well, from the symbol and `PC`. The two
ways have nothing in common but the field that takes the result, and they come to the same bits. In
the same way an expression that is only a symbol stands for its address.
-/

namespace LittleComputer

open Expression (isCapitalName)

/-- A word that is an expression. -/
def Text.asExpression (body : Text) : Text := ("$(" : Text) ++ body ++ (")" : Text)

namespace SymbolTable

/-- All names of the table are written in capitals, and none of them takes the place of `PC`. -/
structure LeavesPC (t : SymbolTable) : Prop where
  capital : ∀ name (a : UInt16), t.addresses[name]? = some a → isCapitalName name = true
  pc : t.addresses["PC"]? = none

/-- No expression is the name of a symbol. -/
theorem LeavesPC.lookup?_asExpression {t : SymbolTable} (h : t.LeavesPC) (body : Text) :
    t.lookup? body.asExpression = none := by
  unfold lookup?
  cases hlookup : t.addresses[body.asExpression.upper]? with
  | none => rfl
  | some a =>
    have hname := h.capital _ a hlookup
    obtain ⟨c, rest, hs, hc, -⟩ := Expression.cons_of_capitalName hname
    rw [Text.toList_upper] at hs
    obtain ⟨rfl, -⟩ := List.cons.inj (hs.symm.trans (by rfl : _ = upperChar '$' :: _))
    cases hc

theorem leavesPC_empty : empty.LeavesPC where
  capital _ _ h := by cases h.symm.trans Std.ExtTreeMap.getElem?_empty
  pc := Std.ExtTreeMap.getElem?_empty

theorem LeavesPC.assign {t : SymbolTable} (h : t.LeavesPC) {name : Text} (a : UInt16)
    (hname : isCapitalName name.upper = true) (hpc : name.upper ≠ "PC") :
    (t.assign name a).LeavesPC where
  capital key b hkey := by
    rw [addresses_assign] at hkey
    split at hkey
    · rename_i heq
      exact heq ▸ hname
    · exact h.capital key b hkey
  pc := by rw [addresses_assign, if_neg hpc, h.pc]

end SymbolTable

namespace Scope

variable {scope : Scope} {word body : Text} {name : String} {v : Int} {a : UInt16}

theorem name?_symbol (h : scope.symbols.addresses[name]? = some a) :
    scope.name? name = some (a.toNat : Int) := by
  unfold name?
  rw [h]

theorem name?_pc (h : scope.symbols.LeavesPC) : scope.name? "PC" = some scope.address := by
  unfold name?
  rw [h.pc]
  rfl

variable [Interpreter]

theorem number_asExpression (h : Interpreter.execute scope.name? (resultText body) = .integer v)
    (hfits : fitsInt64 v = true) : scope.number body.asExpression = .ok v := by
  have hbody : body.asExpression.expression? = some body := Text.expression?_eq_some.mpr rfl
  unfold number
  rw [hbody]
  simp only
  rw [evaluate_eq_ok, h]
  exact if_pos hfits

/-- Only a word that is no number can be meant as a label. -/
theorem immediateOrLabel_of_number (f : Field) (h : scope.number word = .ok v) :
    scope.immediateOrLabel f word = f.pack v := by
  unfold immediateOrLabel immediate
  rw [h]
  by_cases haccepts : f.Accepts v
  · simp only [Field.pack, if_pos haccepts]
  · simp only [Field.pack, if_neg haccepts]

/-- The value of an expression goes into the field as it is. -/
theorem offset_asExpression (bits : Nat) (hsymbols : scope.symbols.LeavesPC)
    (h : Interpreter.execute scope.name? (resultText body) = .integer v)
    (hfits : fitsInt64 v = true) :
    scope.offset bits body.asExpression = (Field.signed bits).pack v := by
  unfold offset
  rw [hsymbols.lookup?_asExpression]
  exact immediateOrLabel_of_number _ (number_asExpression h hfits)

/-- An expression for an address is the address. -/
theorem word_asExpression (hsymbols : scope.symbols.LeavesPC)
    (h : Interpreter.execute scope.name? (resultText body) = .integer (a.toNat : Int)) :
    scope.word body.asExpression = .ok a := by
  have ha : a.toNat < 65536 := a.toNat_lt
  have hfits : fitsInt64 (a.toNat : Int) = true := (fitsInt64_iff _).mpr (by omega)
  unfold Scope.word
  rw [hsymbols.lookup?_asExpression]
  simp only [immediateOrLabel_of_number _ (number_asExpression h hfits)]
  exact Field.pack_word (by decide) (by decide) a

end Scope

/-- A branch to a label and a branch that calculates its offset agree: there is the one offset
exactly if there is the other, and the bits are the same. An expression that is only a label is its
address. -/
theorem expression_offset_agrees [Interpreter] [Interpreter.Calculates] (scope : Scope)
    (haddress : 0 ≤ scope.address ∧ scope.address ≤ 0x10000)
    (hsymbols : scope.symbols.LeavesPC) (name : String) (a : UInt16)
    (hname : scope.symbols.addresses[name]? = some a) :
    (∀ (bits : Nat) (b : BitVec bits),
      scope.offset bits (displacementTo name).asExpression = .ok b ↔
        scope.offset bits (name : Text) = .ok b) ∧
    scope.word (name : Text).asExpression = scope.word (name : Text) := by
  have hcapital := hsymbols.capital name a hname
  have hlookup : scope.symbols.lookup? (name : Text) = some a := by
    unfold SymbolTable.lookup?
    rw [Expression.upper_of_capitalName hcapital, hname]
  have ha : a.toNat < 65536 := a.toNat_lt
  refine ⟨fun bits b => ?_, ?_⟩
  · have hdistance : Int.fdiv (a.toNat - scope.address - 2) 2 = scope.distance a := by
      rw [scope.distance_eq_fdiv a, Int.sub_sub]
    have hfits : fitsInt64 (scope.distance a) = true := by
      rw [fitsInt64_iff]
      unfold Scope.distance
      omega
    have hvalue := Interpreter.Calculates.execute_displacementTo hcapital
      (Scope.name?_symbol hname) (Scope.name?_pc hsymbols)
    rw [hdistance] at hvalue
    rw [Scope.offset_asExpression bits hsymbols hvalue hfits, Scope.offset_of_lookup bits hlookup]
    unfold Field.pack
    split
    · exact Iff.rfl
    · -- the faults differ, but both are faults
      exact ⟨nofun, nofun⟩
  · have hvalue := Interpreter.Calculates.execute_symbol hcapital (Scope.name?_symbol hname)
    rw [Scope.word_asExpression hsymbols hvalue]
    unfold Scope.word
    rw [hlookup]

/-- The first word that nine bits reach backward, a symbol just out of reach, and the address of an
odd symbol. -/
theorem expression_offset_agrees_backward :
    let symbols :=
      ((SymbolTable.empty.assign "FIRST" 0x2E02).assign "OUT" 0x2E01).assign "ODD_1" 0x2FFF
    let scope : Scope := ⟨symbols, 0x3000, 1⟩
    scope.offset 9 "$((FIRST - PC - 2) // 2)" = .ok (-256) ∧
      (∀ b, scope.offset 9 "$((OUT - PC - 2) // 2)" ≠ .ok b) ∧
      scope.word "$(ODD_1)" = .ok 0x2FFF := by
  intro symbols scope
  have hsymbols : scope.symbols.LeavesPC :=
    ((SymbolTable.leavesPC_empty.assign _ (by decide) (by decide)).assign _ (by decide)
      (by decide)).assign _
      (by decide) (by decide)
  have hfirst :=
    expression_offset_agrees scope (by decide) hsymbols "FIRST" 0x2E02 (by decide +kernel)
  have hout := expression_offset_agrees scope (by decide) hsymbols "OUT" 0x2E01 (by decide +kernel)
  have hodd :=
    expression_offset_agrees scope (by decide) hsymbols "ODD_1" 0x2FFF (by decide +kernel)
  refine ⟨(hfirst.1 9 (-256)).mpr (Outcome.eq_ok_of_toOption (by decide +kernel)), fun b hb => ?_,
    hodd.2.trans (Outcome.eq_ok_of_toOption (by decide +kernel))⟩
  have hnone : (scope.offset 9 "OUT").toOption = none := by decide +kernel
  rw [(hout.1 9 b).mp hb] at hnone
  cases hnone

end LittleComputer
