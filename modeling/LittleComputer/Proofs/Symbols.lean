import LittleComputer.Proofs.Outcome
import LittleComputer.Symbols

/-!
# Growing symbol tables

A table only grows while symbols are defined: a name that has an address keeps it. `Within` is that
order, and `lookup?` sees it in every case of a name.
-/

namespace LittleComputer.SymbolTable

open Outcome

/-- Every name that has an address in the first table has the same one in the second. -/
def Within (t u : SymbolTable) : Prop :=
  ∀ (key : String) (a : UInt16), t.addresses[key]? = some a → u.addresses[key]? = some a

theorem Within.refl (t : SymbolTable) : t.Within t := fun _ _ h => h

theorem Within.trans {t u w : SymbolTable} (h : t.Within u) (h' : u.Within w) : t.Within w :=
  fun key a ha => h' key a (h key a ha)

theorem addresses_assign (t : SymbolTable) (name : Text) (a : UInt16) (key : String) :
    (t.assign name a).addresses[key]? = if name.upper = key then some a else t.addresses[key]? := by
  unfold assign
  rw [Std.ExtTreeMap.getElem?_insert]
  simp only [Std.LawfulEqCmp.compare_eq_iff_eq]

/-- A definition goes through exactly when the name is new, and then it is an assignment. -/
theorem define_eq_ok {t u : SymbolTable} {name : Text} {a : UInt16} :
    t.define name a = .ok u ↔ t.addresses[name.upper]? = none ∧ u = t.assign name a := by
  unfold define assign
  cases h : t.addresses[name.upper]? with
  | none => simp only [h, Except.ok.injEq, true_and, eq_comm]
  | some b => simp only [h, reduceCtorEq, false_and]

theorem within_of_define {t u : SymbolTable} {name : Text} {a : UInt16}
    (h : t.define name a = .ok u) : t.Within u := by
  obtain ⟨hnew, rfl⟩ := define_eq_ok.mp h
  intro key b hb
  rw [addresses_assign]
  split
  · rename_i heq
    rw [heq, hb] at hnew
    cases hnew
  · exact hb

theorem addresses_of_define {t u : SymbolTable} {name : Text} {a : UInt16}
    (h : t.define name a = .ok u) : u.addresses[name.upper]? = some a := by
  obtain ⟨-, rfl⟩ := define_eq_ok.mp h
  rw [addresses_assign, if_pos rfl]

/-- A definition says nothing of other names. -/
theorem addresses_of_define_ne {t u : SymbolTable} {name : Text} {a : UInt16} {key : String}
    (h : t.define name a = .ok u) (hne : name.upper ≠ key) :
    u.addresses[key]? = t.addresses[key]? := by
  obtain ⟨-, rfl⟩ := define_eq_ok.mp h
  rw [addresses_assign, if_neg hne]

/-- A definition adds its name to a table that did not have it, and no other name. -/
theorem mem_of_define {t u : SymbolTable} {name : Text} {a : UInt16} (h : t.define name a = .ok u) :
    name.upper ∉ t.addresses ∧ ∀ key, key ∈ u.addresses ↔
      key ∈ t.addresses ∨ name.upper = key := by
  obtain ⟨hnew, rfl⟩ := define_eq_ok.mp h
  simp only [Std.ExtTreeMap.mem_iff_isSome_getElem?, addresses_assign, hnew, Option.isSome_none,
    Bool.false_eq_true, not_false_eq_true, true_and]
  intro key
  by_cases hkey : name.upper = key
  · simp [hkey]
  · simp [hkey]

/-- The symbols of a table, in any order, are the names it has addresses for. -/
theorem mem_of_perm {t : SymbolTable} {symbols : List (String × UInt16)}
    (h : symbols.Perm t.toList)
    {key : String} {a : UInt16} : (key, a) ∈ symbols ↔ t.addresses[key]? = some a := by
  rw [h.mem_iff]
  exact Std.ExtTreeMap.mem_toList_iff_getElem?_eq_some

/-- Defining symbols one after the other adds each of them, under its name in upper case. -/
theorem addresses_of_defineAll {t u : SymbolTable} {symbols : List (String × UInt16)}
    (h : t.defineAll symbols = .ok u) (key : String) (a : UInt16) :
    u.addresses[key]? = some a ↔
      t.addresses[key]? = some a ∨ ∃ name, (name, a) ∈ symbols ∧
        (name : Text).upper = key := by
  induction symbols generalizing t with
  | nil =>
    cases h
    simp
  | cons symbol rest ih =>
    obtain ⟨name, b⟩ := symbol
    unfold defineAll at h
    split at h
    · rename_i t' hdefine
      obtain ⟨hnew, rfl⟩ := define_eq_ok.mp hdefine
      rw [ih h, addresses_assign]
      simp only [List.mem_cons, Prod.mk.injEq, or_and_right, and_assoc, exists_or, exists_eq_left]
      by_cases hkey : (name : Text).upper = key
      · -- the name is new, so the table had nothing under the key before
        have hnone : t.addresses[key]? ≠ some a := by rw [← hkey, hnew]; nofun
        simp [hkey, hnone, eq_comm]
      · simp [hkey]
    · cases h

end LittleComputer.SymbolTable
