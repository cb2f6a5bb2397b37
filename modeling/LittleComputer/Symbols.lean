import LittleComputer.Fault
import Std.Data.ExtTreeMap

/-!
# Symbol tables

A symbol table gives addresses to names. Names are kept in upper case, so `loop` and `LOOP` are the
same symbol; the first definition of a name stands and a second one is a fault. Symbols are listed
in the order of their names, code point by code point.
-/

namespace LittleComputer

structure SymbolTable where
  addresses : Std.ExtTreeMap String UInt16

namespace SymbolTable

def empty : SymbolTable := ⟨∅⟩

instance : Inhabited SymbolTable := ⟨empty⟩

def lookup? (t : SymbolTable) (name : Text) : Option UInt16 := t.addresses[name.upper]?

def define (t : SymbolTable) (name : Text) (address : UInt16) : Except Fault SymbolTable :=
  let key := name.upper
  match t.addresses[key]? with
  | some _ => .error (.duplicateLabel key)
  | none => .ok ⟨t.addresses.insert key address⟩

/-- The table once a symbol was to be defined; a fault leaves it as it is. -/
def afterDefine (t : SymbolTable) (name : Text) (address : UInt16) : SymbolTable :=
  match t.define name address with
  | .ok u => u
  | .error _ => t

/-- Gives a name an address whether it has one or not. -/
def assign (t : SymbolTable) (name : Text) (address : UInt16) : SymbolTable :=
  ⟨t.addresses.insert name.upper address⟩

/-- The symbols in the order of their names. -/
def toList (t : SymbolTable) : List (String × UInt16) := t.addresses.toList

def size (t : SymbolTable) : Nat := t.addresses.size

/-- A new table that takes symbols in the order given, under their names as they are. -/
def ofList (symbols : List (String × UInt16)) : SymbolTable := ⟨.ofList symbols⟩

def clone (t : SymbolTable) : SymbolTable := ofList t.toList

/-- Defines one symbol after the other. -/
def defineAll (t : SymbolTable) : List (String × UInt16) → Except Fault SymbolTable
  | [] => .ok t
  | (name, address) :: rest =>
    match t.define name address with
    | .ok t => t.defineAll rest
    | .error fault => .error fault

end SymbolTable

end LittleComputer
