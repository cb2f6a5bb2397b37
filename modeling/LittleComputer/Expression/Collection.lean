import LittleComputer.Expression.StringMethod

/-!
# Methods of lists and dictionaries

Most of them change the list or the dictionary they belong to. `Method.call` calls any method.
-/

namespace LittleComputer.Expression

/-! ## Lists -/

/-- Inserts a value before a position; a negative one counts from the end. -/
def inserted (i : Int) (v : Value) (members : Array Value) : Array Value :=
  let at_ := if i < 0 then i + members.size else i
  let n := min at_.toNat members.size
  members.extract 0 n ++ #[v] ++ members.extract n members.size

/-- A list without the item at a position. -/
def withoutItem (n : Nat) (members : Array Value) : Array Value :=
  members.extract 0 n ++ members.extract (n + 1) members.size

/-- A method of the list in a cell. -/
def Method.onList (m : Method) (cell : Nat) (given : List Value) : Action Value := do
  let members ← ask (·.list? cell)
  match m, given with
  | .append, [v] =>
    changeList cell (·.push v)
    return .none
  | .clear, [] =>
    changeList cell fun _ => #[]
    return .none
  | .extend, [v] =>
    let items ← itemsOf v
    changeList cell (· ++ items.toArray)
    return .none
  | .index, v :: bounds =>
    let (start, stop) ← ofOption (window? members.size bounds)
    let position ← ask fun store =>
      Value.indexOf? store v (members.extract start stop).toList start
    ofOption (position.map fun i => .int i)
  | .insert, [i, v] =>
    let i ← ofOption i.int64?
    changeList cell (inserted i v)
    return .none
  | .pop, given =>
    let i ← ofOption <| match given with
      | [] => some ((members.size : Int) - 1)
      | [i] => i.int64?
      | _ => none
    let n ← ofOption (position? members.size i)
    changeList cell (withoutItem n)
    return members.getD n .none
  | .remove, [v] =>
    checkChange cell
    match ← ask fun store => Value.indexOf? store v members.toList 0 with
    | some n =>
      changeList cell (withoutItem n)
      return .none
    | none => ofOption none
  | _, _ => ofOption none

/-! ## Dictionaries -/

/-- A key and a value from a sequence of two. -/
def pairOf? (store : Store) (pair : Value) : Option (Value × Value) := do
  let items ← pair.items? store
  if pair.length? store = some 2 then some (items.get 0, items.get 1) else none

/-- Adds the entries of another dictionary or of a sequence of pairs, then those given by name, no
name twice. -/
def updateDict (cell : Nat) (given : List Value) (named : Named) : Action Unit := do
  match given with
  | [] => ofOption (some ())
  | [.dict other] =>
    let d ← ask (·.dict? other)
    setKeys cell d.toList
  | [v] =>
    let items ← itemsOf v
    items.fold () fun pair _ => do
      let (k, v) ← ask fun store => pairOf? store pair
      setKey cell k v
      return ((), true)
  | _ => ofOption none
  setKeys cell (named.map fun (s, v) => (.string (Bytes.ofList s), v))
  let names := named.map (·.1)
  if names.eraseDups.length = names.length then ofOption (some ()) else ofOption none

/-- A method of the dictionary in a cell. -/
def Method.onDict (m : Method) (cell : Nat) (given : List Value) (named : Named) :
    Action Value := do
  let d ← ask (·.dict? cell)
  match m, given with
  | .clear, [] =>
    changeDict cell fun _ => .empty
    return .none
  | .get, [k] => ofOption (k.key?.map fun key => (d.get? key).getD .none)
  | .get, [k, v] => ofOption (k.key?.map fun key => (d.get? key).getD v)
  | .items, [] => newList (d.toList.map fun (k, v) => .tuple [k, v]).toArray
  | .keys, [] => newList (d.toList.map (·.1)).toArray
  | .pop, k :: default =>
    if default.length > 1 then ofOption none
    else
      checkChange cell
      if d.size = 0 then ofOption default.head?
      else
        let key ← ofOption k.key?
        match d.get? key with
        | some v =>
          changeDict cell (·.erase key)
          return v
        | none => ofOption default.head?
  | .popItem, [] =>
    match d.toList with
    | (k, v) :: _ =>
      let key ← ofOption k.key?
      changeDict cell (·.erase key)
      return .tuple [k, v]
    | [] => ofOption none
  | .setDefault, k :: default =>
    if default.length > 1 then ofOption none
    else
      let key ← ofOption k.key?
      match d.get? key with
      | some v => return v
      | none =>
        let v := default.head?.getD .none
        changeDict cell fun d => d.insert key k v
        return v
  | .update, given =>
    updateDict cell given named
    return .none
  | .values, [] => newList (d.toList.map (·.2)).toArray
  | _, _ => ofOption none

/-! ## Calls -/

/-- Calls a method of a value. Only two methods take arguments by name. -/
def Method.call (self : Value) (m : Method) (given : List Value) (named : Named) : Action Value :=
  match self, m with
  | .string s, .format => ask fun store =>
    (format? store s.toList given named).map fun t => .string (Bytes.ofList t)
  | .dict cell, .update => Method.update.onDict cell given named
  | self, m =>
    if named.isEmpty then
      match self with
      | .string s => m.onString s given
      | .bytes s =>
        match m, given with
        | .elems, [] => ofOption (some (.view .byteElems s))
        | _, _ => ofOption none
      | .list cell => m.onList cell given
      | .dict cell => m.onDict cell given []
      | _ => ofOption none
    else ofOption none

/-- The method of a value with a name. -/
def method (self : Value) (name : String) : Action Value := do
  match self.methods.lookup name with
  | some m => return .method (← newSerial) self name m
  | none => ofOption none

end LittleComputer.Expression
