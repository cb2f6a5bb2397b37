import LittleComputer.Proofs.ByteOrder
import LittleComputer.Proofs.Symbols

/-!
# A symbol table is told by its definitions

A table keeps the first address that a name was defined with, and names that agree in upper case are
one name. So the calls that were made tell all that can be seen of a table: which further calls
fail, what is found under a name, which symbols are listed and in which order, how many there are,
and what a copy has.
-/

namespace LittleComputer

namespace SymbolTable

/-- The table once symbols were to be defined one after the other. -/
def afterCalls (t : SymbolTable) (calls : List (Text × UInt16)) : SymbolTable :=
  calls.foldl (fun t call => t.afterDefine call.1 call.2) t

/-- The address in the first of the calls for a name in upper case. -/
def firstAddress? (calls : List (Text × UInt16)) (key : String) : Option UInt16 :=
  (calls.find? (·.1.upper == key)).map (·.2)

theorem define_eq_error {t : SymbolTable} {name : Text} {a : UInt16} {fault : Fault} :
    t.define name a = .error fault ↔
      fault = .duplicateLabel name.upper ∧ name.upper ∈ t.addresses := by
  unfold define
  rw [Std.ExtTreeMap.mem_iff_isSome_getElem?]
  cases h : t.addresses[name.upper]? with
  | none => simp [h]
  | some b => simp [h, eq_comm]

theorem afterDefine_of_mem {t : SymbolTable} {name : Text} (h : name.upper ∈ t.addresses)
    (a : UInt16) :
    t.afterDefine name a = t := by
  unfold afterDefine
  rw [define_eq_error.mpr ⟨rfl, h⟩]

theorem addresses_afterDefine (t : SymbolTable) (name : Text) (a : UInt16) (key : String) :
    (t.afterDefine name a).addresses[key]? =
      t.addresses[key]?.or (if name.upper = key then some a else none) := by
  cases hkey : t.addresses[name.upper]? with
  | none =>
    have hassign : t.afterDefine name a = t.assign name a := by
      unfold afterDefine
      rw [define_eq_ok.mpr ⟨hkey, rfl⟩]
    rw [hassign, addresses_assign]
    by_cases hname : name.upper = key
    · rw [if_pos hname, if_pos hname, ← hname, hkey, Option.none_or]
    · rw [if_neg hname, if_neg hname, Option.or_none]
  | some b =>
    have hmem : name.upper ∈ t.addresses := by
      rw [Std.ExtTreeMap.mem_iff_isSome_getElem?, hkey]
      rfl
    rw [afterDefine_of_mem hmem]
    by_cases hname : name.upper = key
    · rw [← hname, hkey, Option.some_or]
    · rw [if_neg hname, Option.or_none]

/-- A name keeps the address it had; otherwise it has that of its first call. -/
theorem addresses_afterCalls (t : SymbolTable) (calls : List (Text × UInt16)) (key : String) :
    (t.afterCalls calls).addresses[key]? = t.addresses[key]?.or (firstAddress? calls key) := by
  unfold afterCalls
  induction calls generalizing t with
  | nil =>
    rw [List.foldl_nil]
    exact Option.or_none.symm
  | cons call rest ih =>
    rw [List.foldl_cons, ih, addresses_afterDefine, Option.or_assoc]
    congr 1
    unfold firstAddress?
    by_cases hcall : call.1.upper = key
    · simp [hcall]
    · simp [hcall]

theorem addresses_of_calls (calls : List (Text × UInt16)) (key : String) :
    (empty.afterCalls calls).addresses[key]? = firstAddress? calls key := by
  have hempty : empty.addresses[key]? = none := by simp [empty]
  rw [addresses_afterCalls, hempty, Option.none_or]

theorem mem_of_calls {calls : List (Text × UInt16)} {key : String} :
    key ∈ (empty.afterCalls calls).addresses ↔ ∃ call ∈ calls, call.1.upper = key := by
  rw [Std.ExtTreeMap.mem_iff_isSome_getElem?, addresses_of_calls, firstAddress?, Option.isSome_map,
    List.find?_isSome]
  simp only [beq_iff_eq]

/-- Symbols are listed in the order of their bytes. -/
theorem pairwise_toList (t : SymbolTable) :
    t.toList.Pairwise fun x y => Text.toBytes x.1 < Text.toBytes y.1 := by
  have hsorted : t.toList.Pairwise fun x y => compare x.1 y.1 = .lt :=
    Std.ExtTreeMap.ordered_keys_toList
  exact hsorted.imp fun hlt => Text.toBytes_lt (compareOfLessAndEq_eq_lt.mp hlt)

/-- A table is filled again with its symbols, in whatever order they are taken. -/
theorem ofList_of_perm {t : SymbolTable} {symbols : List (String × UInt16)}
    (h : symbols.Perm t.toList) :
    ofList symbols = t := by
  have hapart : symbols.Pairwise fun x y => ¬ compare x.1 y.1 = .eq :=
    h.symm.pairwise Std.ExtTreeMap.distinct_keys_toList fun hne heq =>
      hne (Std.OrientedCmp.eq_symm heq)
  have hsame : (Std.ExtTreeMap.ofList symbols : Std.ExtTreeMap String UInt16) = t.addresses := by
    refine Std.ExtTreeMap.ext_getElem? fun key => ?_
    cases hkey : t.addresses[key]? with
    | some a =>
      exact Std.ExtTreeMap.getElem?_ofList_of_mem Std.ReflCmp.compare_self hapart
        ((mem_of_perm h).mpr hkey)
    | none =>
      refine Std.ExtTreeMap.getElem?_ofList_of_contains_eq_false ?_
      rw [List.contains_eq_mem, decide_eq_false_iff_not, List.mem_map]
      rintro ⟨⟨key, a⟩, hsymbol, rfl⟩
      cases hkey.symm.trans ((mem_of_perm h).mp hsymbol)
  unfold ofList
  rw [hsame]

end SymbolTable

/-- A symbol table keeps first definitions. After any calls to define symbols in an empty table, of
which some may have failed: a further call fails, as a duplicate of its name in upper case, if and
only if one of the calls had that name in upper case, and the table stays as it is; a name is found
with the address in the first call for it, or not at all; the symbols listed are the names in upper
case with these addresses, by ascending bytes, so that each is listed once; the size is the number
of symbols listed; and a copy lists the same ones, in whatever order it takes them. -/
theorem table_keeps_first_definitions (calls : List (Text × UInt16)) :
    let table := SymbolTable.empty.afterCalls calls
    let IsUsed (name : Text) : Prop := ∃ call ∈ calls, call.1.upper = name.upper
    (∀ name address fault, table.define name address = .error fault ↔
      fault = .duplicateLabel name.upper ∧ IsUsed name) ∧
    (∀ name address, IsUsed name → table.afterDefine name address = table) ∧
    (∀ name, table.lookup? name = SymbolTable.firstAddress? calls name.upper) ∧
    (∀ key address, (key, address) ∈ table.toList ↔
      SymbolTable.firstAddress? calls key = some address) ∧
    table.toList.Pairwise (fun x y => Text.toBytes x.1 < Text.toBytes y.1) ∧
    table.size = table.toList.length ∧
    table.clone.toList = table.toList ∧
    ∀ order : List (String × UInt16), order.Perm table.toList →
      (SymbolTable.ofList order).toList = table.toList := by
  intro table IsUsed
  have hcopy : ∀ order : List (String × UInt16), order.Perm table.toList →
      (SymbolTable.ofList order).toList = table.toList := by
    intro order horder
    rw [SymbolTable.ofList_of_perm horder]
  refine ⟨fun name address fault => ?_, fun name address hused => ?_, fun name => ?_,
    fun key address => ?_, table.pairwise_toList, Std.ExtTreeMap.length_toList.symm,
    hcopy table.toList (.refl _), hcopy⟩
  · rw [SymbolTable.define_eq_error, SymbolTable.mem_of_calls]
  · exact SymbolTable.afterDefine_of_mem (SymbolTable.mem_of_calls.mpr hused) address
  · exact SymbolTable.addresses_of_calls calls name.upper
  · rw [← SymbolTable.addresses_of_calls]
    exact SymbolTable.mem_of_perm (.refl _)

end LittleComputer
