import LittleComputer.Expression.Value
import Std.Data.HashMap

/-!
# Dictionaries

Entries in the order in which their keys were first given, with an index from keys to places. A key
that was taken out leaves an empty place behind.
-/

namespace LittleComputer.Expression

structure Dictionary where
  entries : Array (Option (Value × Value))
  /-- Where the entry of each key stands. -/
  places : Std.HashMap (List Int) Nat

namespace Dictionary

def empty : Dictionary := ⟨#[], ∅⟩

def size (d : Dictionary) : Nat := d.places.size

def toList (d : Dictionary) : List (Value × Value) := d.entries.toList.filterMap id

def get? (d : Dictionary) (key : List Int) : Option Value :=
  match d.places[key]? with
  | some i => ((d.entries[i]?.getD none).map (·.2))
  | none => none

/-- Sets the value of a key. A key that is there keeps its place. -/
def insert (d : Dictionary) (key : List Int) (k v : Value) : Dictionary :=
  match d.places[key]? with
  | some i => { d with entries := d.entries.modify i fun e => e.map fun (old, _) => (old, v) }
  | none =>
    let next := d.entries.size
    ⟨d.entries.push (some (k, v)), d.places.insert key next⟩

def erase (d : Dictionary) (key : List Int) : Dictionary :=
  match d.places[key]? with
  | some i => ⟨d.entries.setIfInBounds i none, d.places.erase key⟩
  | none => d

/-- Sets the value of a key, if the key can be one. -/
def insert? (d : Dictionary) (k v : Value) : Option Dictionary :=
  k.key?.map fun key => d.insert key k v

/-- Puts entries into a dictionary in order. -/
def insertAll? (d : Dictionary) : List (Value × Value) → Option Dictionary
  | [] => some d
  | (k, v) :: rest =>
    match d.insert? k v with
    | some d => d.insertAll? rest
    | none => none

end Dictionary

end LittleComputer.Expression
