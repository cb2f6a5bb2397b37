import LittleComputer.Expression.Dictionary
import LittleComputer.Text.Glyph

/-!
# Memory

Cells hold the lists and dictionaries, frames the variables of functions. A list or a dictionary
cannot change while something goes through its items; a cell counts those readers.

An `Action` is a computation that may change the memory and may stop before its end.
-/

namespace LittleComputer.Expression

inductive Object where
  | list (items : Array Value)
  | dict (d : Dictionary)

instance : Inhabited Object := ⟨.list #[]⟩

structure Cell where
  content : Object
  /-- How many loops go through it. -/
  readers : Nat := 0

/-- The variables of a running function, by block and name. -/
abbrev Frame := List ((Nat × String) × Value)

structure Store where
  frames : Array Frame
  cells : Array Cell
  /-- The next number that tells a function from every other value. -/
  serial : Nat

def Store.empty : Store := ⟨#[], #[], 0⟩

/-- Why a computation stops before its end. -/
inductive Stop where
  | failure
  /-- The interpreter breaks down. -/
  | crash (message : String)

/-- A computation that may change the memory and may stop before its end. -/
abbrev Action := StateT Store (Except Stop)

/-- Names of arguments are strings of bytes, as the keys of a dictionary are. -/
abbrev Named := List (List UInt8 × Value)

/-- Calls a value with arguments by position and by name. -/
abbrev Caller := Value → List Value → Named → Action Value

/-- What a function says of the memory as it is; to say nothing is to fail. -/
def ask {α : Type} (f : Store → Option α) : Action α := fun store =>
  match f store with
  | some a => .ok (a, store)
  | none => .error .failure

def ofOption {α : Type} (x : Option α) : Action α := ask fun _ => x

namespace Store

def list? (store : Store) (cell : Nat) : Option (Array Value) :=
  match store.cells[cell]? with
  | some ⟨.list items, _⟩ => some items
  | _ => none

def dict? (store : Store) (cell : Nat) : Option Dictionary :=
  match store.cells[cell]? with
  | some ⟨.dict d, _⟩ => some d
  | _ => none

end Store

/-- Puts an object into a new cell. -/
def newCell (content : Object) : Action Nat := fun store =>
  .ok (store.cells.size, { store with cells := store.cells.push { content } })

def newList (items : Array Value) : Action Value := do return .list (← newCell (.list items))

def newDict (d : Dictionary) : Action Value := do return .dict (← newCell (.dict d))

/-- Fails if something goes through the items of a cell. -/
def checkChange (cell : Nat) : Action Unit := ask fun store =>
  match store.cells[cell]? with
  | some c => if c.readers = 0 then some () else none
  | none => none

/-- Changes the list in a cell. -/
def changeList (cell : Nat) (f : Array Value → Array Value) : Action Unit := do
  checkChange cell
  modify fun store => { store with cells := store.cells.modify cell fun c =>
    match c with
    | ⟨.list items, readers⟩ => ⟨.list (f items), readers⟩
    | c => c }

/-- Changes the dictionary in a cell. -/
def changeDict (cell : Nat) (f : Dictionary → Dictionary) : Action Unit := do
  checkChange cell
  modify fun store => { store with cells := store.cells.modify cell fun c =>
    match c with
    | ⟨.dict d, readers⟩ => ⟨.dict (f d), readers⟩
    | c => c }

/-- Sets the value of a key of a dictionary. -/
def setKey (cell : Nat) (k v : Value) : Action Unit := do
  let key ← ofOption k.key?
  changeDict cell fun d => d.insert key k v

/-- Sets the values of keys of a dictionary, in order. -/
def setKeys (cell : Nat) : List (Value × Value) → Action Unit
  | [] => ofOption (some ())
  | (k, v) :: rest => do
    setKey cell k v
    setKeys cell rest

/-- Counts one reader more or less of the cell of a value. -/
def countReader (change : Nat → Nat) (v : Value) : Action Unit :=
  match v with
  | .list cell => at_ cell
  | .dict cell => at_ cell
  | _ => ofOption (some ())
where
  at_ (cell : Nat) : Action Unit :=
    modify fun store => { store with cells := store.cells.modify cell fun c =>
      { c with readers := change c.readers } }

/-- Runs an action during which a value cannot change. -/
def whileReading {α : Type} (v : Value) (action : Action α) : Action α := do
  countReader (· + 1) v
  let result ← action
  countReader (· - 1) v
  return result

/-- A number that no value has yet. -/
def newSerial : Action Nat := modifyGet fun store =>
  (store.serial, { store with serial := store.serial + 1 })

/-! ## Items -/

/-- What a value yields one by one. -/
inductive Items where
  | array (members : Array Value)
  | range (start step : Int) (count : Nat)

namespace Items

def size : Items → Nat
  | .array members => members.size
  | .range _ _ count => count

def get (i : Nat) : Items → Value
  | .array members => members.getD i .none
  | .range start step _ => Value.rangeItem start step i

def toArray : Items → Array Value
  | .array members => members
  | .range start step count => (Array.range count).map (Value.rangeItem start step)

def toList (items : Items) : List Value := items.toArray.toList

/-- Goes through the last `left` items. The step says whether to go on. -/
def foldFrom {σ : Type} (items : Items) (step : Value → σ → Action (σ × Bool)) :
    (left : Nat) → σ → Action σ
  | 0, s => fun store => .ok (s, store)
  | left + 1, s => fun store =>
    match step (items.get (items.size - (left + 1))) s store with
    | .ok ((s, true), store) => foldFrom items step left s store
    | .ok ((s, false), store) => .ok (s, store)
    | .error stop => .error stop

/-- Goes through the items until a step says not to go on. -/
def fold {σ : Type} (items : Items) (s : σ) (step : Value → σ → Action (σ × Bool)) :
    Action σ :=
  items.foldFrom step items.size s

/-- Whether one of the last `left` items passes a test. -/
def anyFrom (items : Items) (test : Value → Bool) : (left : Nat) → Bool
  | 0 => false
  | left + 1 =>
    if test (items.get (items.size - (left + 1))) then true else items.anyFrom test left

def any (items : Items) (test : Value → Bool) : Bool := items.anyFrom test items.size

end Items

/-- The bytes of a character. -/
def utf8 (cs : List Char) : List UInt8 := cs.flatMap String.utf8EncodeChar

/-- Characters of a string; stray bytes are U+FFFD. -/
def charsOf (s : Bytes) : List Char := Text.scalars (Text.ofBytes s.toList)

/-- A string from characters. -/
def stringOf (cs : List Char) : Value := .string (Bytes.ofList (utf8 cs))

/-- The parts of a string that a view shows. -/
def View.items (view : View) (s : Bytes) : List Value :=
  match view with
  | .elems => s.toList.map fun b => .string (Bytes.ofList [b])
  | .elemOrds => s.toList.map fun b => .int b.toNat
  | .codepoints => (charsOf s).map fun c => stringOf [c]
  | .codepointOrds => (charsOf s).map fun c => .int c.toNat
  | .byteElems => s.toList.map fun b => .int b.toNat

namespace Value

/-- The items that a value yields one by one; a dictionary yields its keys, a string nothing. -/
def items? (store : Store) : Value → Option Items
  | .tuple members => some (.array members.toArray)
  | .list cell => (store.list? cell).map .array
  | .dict cell => (store.dict? cell).map fun d => .array (d.toList.map (·.1)).toArray
  | .range a b s => some (.range a s (rangeLength a b s).toNat)
  | .view v s => some (.array (v.items s).toArray)
  | _ => Option.none

/-- Number of items or bytes; that of a range may be negative. -/
def length? (store : Store) : Value → Option Int
  | .string s => some s.size
  | .bytes s => some s.size
  | .tuple members => some members.length
  | .list cell => (store.list? cell).map fun items => items.size
  | .dict cell => (store.dict? cell).map fun d => d.size
  | .range a b s => some (rangeLength a b s)
  | .view .elems s => some s.size
  | .view .elemOrds s => some s.size
  | _ => Option.none

def truth (store : Store) : Value → Bool
  | .none => false
  | .bool b => b
  | .int v => v != 0
  | .float v => v != 0.0
  | .view .. => true
  | v =>
    match v.length? store with
    | some n => n > 0
    | Option.none => true

end Value

def itemsOf (v : Value) : Action Items := ask fun store => v.items? store

def truthOf (v : Value) : Action Bool := ask fun store => some (v.truth store)

end LittleComputer.Expression
