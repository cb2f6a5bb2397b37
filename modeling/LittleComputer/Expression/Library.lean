import LittleComputer.Expression.Collection
import LittleComputer.Expression.NumberText

/-!
# Built-in functions

The functions that every expression can call. Most of them work on values and memory alone; `max`,
`min` and `sorted` may call a function for each item, so they are given the means to call.
-/

namespace LittleComputer.Expression

/-! ## Sequences -/

/-- Groups the first items of all sequences, the second ones and so on, until a sequence ends. -/
def zipItems (all : List Items) : Array Value :=
  match (all.map Items.size).min? with
  | some rows => (Array.range rows).map fun i => .tuple (all.map (·.get i))
  | none => #[]

/-- Items with their numbers. -/
def numbered (start : Int) (items : Items) : Array Value :=
  (Array.range items.size).map fun (i : Nat) => .tuple [.int (wrap64 (start + i)), items.get i]

/-- Bytes from a list of integers. -/
def bytesOf? (members : List Value) : Option Bytes := do
  let bytes ← members.mapM fun
    | .int v => if 0 ≤ v ∧ v < 256 then some v.toNat.toUInt8 else none
    | _ => none
  some (Bytes.ofList bytes)

def rangeOf? (start stop step : Value) : Option Value := do
  let a ← start.int64?
  let b ← stop.int64?
  let s ← step.int64?
  if s = 0 then none else some (.range a b s)

/-! ## Numbers -/

def ofIntText? (s : Bytes) (base : Value) : Option Value := do
  let b ← base.int32?
  if b = 0 ∨ (2 ≤ b ∧ b ≤ 36) then (intOfChars? b.toNat (charsOf s)).map .int else none

def numberOf? : Value → Option Value
  | .bool b => some (.int b.toNat)
  | v => v.toInt?.map .int

/-- A sum over the characters of a string, each before times 31, counted with 32 bits and a sign. -/
def stringHash (s : Bytes) : Int :=
  (charsOf s).foldl (fun h c => Int.bmod (31 * h + c.toNat) 0x100000000) 0

/-- The hash of bytes that multiplies by a prime behind each byte, counted with 32 bits. -/
def bytesHash (s : Bytes) : Nat :=
  s.toList.foldl (fun h b => ((h ^^^ b.toNat) * 16777619) % 0x100000000) 2166136261

/-! ## Calls by position -/

/-- The method of a value with a name that is a string. -/
def methodNamed? (self : Value) (name : Bytes) : Option String :=
  (self.methods.find? fun (s, _) => utf8 s.toList == name.toList).map (·.1)

/-- What a built-in function gives for arguments by position. -/
def Builtin.onValues (f : Builtin) (given : List Value) : Action Value :=
  match f, given with
  | .abs, [.int v] => ofOption (some (.int v.natAbs))
  | .abs, [.float v] => ofOption (some (.float v.abs))
  | .all, [v] => ask fun store =>
    (v.items? store).map fun items => .bool !(items.any fun x => !x.truth store)
  | .any, [v] => ask fun store =>
    (v.items? store).map fun items => .bool (items.any fun x => x.truth store)
  | .bool, [] => ofOption (some (.bool false))
  | .bool, [v] => do return .bool (← truthOf v)
  | .bytes, [.bytes s] => ofOption (some (.bytes s))
  | .bytes, [.string s] => ofOption (some (.bytes (Bytes.ofList (utf8 (charsOf s)))))
  | .bytes, [v] => do
    let items ← itemsOf v
    ofOption ((bytesOf? items.toList).map .bytes)
  | .chr, [.int v] => ofOption ((charOf? v).map fun c => stringOf [c])
  | .dir, [v] => newList (v.methods.map fun (s, _) => stringOf s.toList).toArray
  | .enumerate, [v] => do newList (numbered 0 (← itemsOf v))
  | .enumerate, [v, start] => do
    let start ← ofOption start.int64?
    newList (numbered start (← itemsOf v))
  | .float, [] => ofOption (some (.float 0.0))
  | .float, [.bool b] => ofOption (some (.float (if b then 1.0 else 0.0)))
  | .float, [.int v] => ofOption ((Binary64.ofInt? v).map .float)
  | .float, [.float v] => ofOption (some (.float v))
  | .float, [.string s] => ofOption ((floatOfChars? (charsOf s)).map .float)
  | .getattr, self :: .string name :: default =>
    if default.length > 1 then ofOption none
    else
      match methodNamed? self name with
      | some s => method self s
      | none => ofOption default.head?
  | .hasattr, [self, .string name] => ofOption (some (.bool (methodNamed? self name).isSome))
  | .hash, [.string s] => ofOption (some (.int (stringHash s)))
  | .hash, [.bytes s] => ofOption (some (.int (bytesHash s)))
  | .int, [.string s] => ofOption ((intOfChars? 10 (charsOf s)).map .int)
  | .int, [v] => ofOption (numberOf? v)
  | .int, [.string s, base] => ofOption (ofIntText? s base)
  | .len, [v] => ask fun store => do
    let n ← v.length? store
    if n < 0 then none else some (.int n)
  | .list, [] => newList #[]
  | .list, [v] => do newList (← itemsOf v).toArray
  | .ord, [.string s] =>
    match charsOf s with
    | [c] => ofOption (some (.int c.toNat))
    | _ => ofOption none
  | .ord, [.bytes s] =>
    if s.size = 1 then ofOption (some (.int (s.byteAt 0).toNat)) else ofOption none
  | .range, [stop] => ofOption (rangeOf? (.int 0) stop (.int 1))
  | .range, [start, stop] => ofOption (rangeOf? start stop (.int 1))
  | .range, [start, stop, step] => ofOption (rangeOf? start stop step)
  | .repr, [v] => ask fun store => some (.string (Bytes.ofList (Text.toBytes (v.written store))))
  | .reversed, [v] => do newList (← itemsOf v).toArray.reverse
  | .str, [v] => ask fun store => some (.string (v.text store))
  | .tuple, [] => ofOption (some (.tuple []))
  | .tuple, [v] => do return .tuple (← itemsOf v).toList
  | .type, [v] => ofOption (some (stringOf v.typeName.toList))
  | .zip, given => do
    let all ← ask fun store => given.mapM fun v => v.items? store
    newList (zipItems all)
  | _, _ => ofOption none

/-! ## Calls that may call -/

/-- The arguments of a function whose parameters have these names; each is given at most once. -/
def fillParameters? (names : List String) (given : List Value) (named : Named) :
    Option (List (List UInt8 × Value)) :=
  let names := names.map fun s => utf8 s.toList
  let all := names.zip given ++ named
  if given.length ≤ names.length ∧ (named.all fun (s, _) => names.contains s) ∧
      (all.map (·.1)).eraseDups.length = all.length then some all
  else none

def argument? (name : String) (all : List (List UInt8 × Value)) : Option Value :=
  all.lookup (utf8 name.toList)

/-- The key by which an item is compared. -/
def keyFor (call : Caller) (key : Option Value) (v : Value) : Action Value :=
  match key with
  | some f => call f [v] []
  | none => ofOption (some v)

/-- A function to call, if one is given. -/
def callable? : Option Value → Option (Option Value)
  | none => some none
  | some f => if f.isCallable then some (some f) else none

/-- The first of the best items, and its key: one takes the place of the best so far if it stands to
it as `better` says. -/
def bestOf (call : Caller) (key : Option Value) (better : Ordering) (items : Items) :
    Action (Option (Value × Value)) :=
  items.fold none fun v best => do
    let k ← keyFor call key v
    match best with
    | none => return (some (k, v), true)
    | some (least, old) =>
      let o ← ask fun store => Value.order store k least
      return (some (if o == better then (k, v) else (least, old)), true)

/-- The greatest or least of the arguments, or of the items of a single one. -/
def best (call : Caller) (better : Ordering) (given : List Value) (named : Named) :
    Action Value := do
  let options ← ofOption (fillParameters? ["key"] [] named)
  let key ← ofOption (callable? (argument? "key" options))
  let source := match given with
    | [v] => v
    | given => .tuple given
  let items ← itemsOf source
  let found ← whileReading source (bestOf call key better items)
  ofOption (found.map (·.2))

/-- Whether the keys of neighbours can be compared. -/
def areComparable (store : Store) : List (Value × Value) → Bool
  | a :: b :: rest => (Value.order store a.1 b.1).isSome && areComparable store (b :: rest)
  | _ => true

/-- A stable sort by keys. -/
def sortedBy (store : Store) (reverse : Bool) (members : List (Value × Value)) :
    Option (List Value) :=
  let before (a b : Value × Value) : Bool :=
    if reverse then Value.order store a.1 b.1 != some .lt else Value.order store a.1 b.1 != some .gt
  let result := members.mergeSort before
  if areComparable store result then some (result.map (·.2)) else none

/-- Items with the keys that order them. -/
def withKeys (call : Caller) (key : Option Value) (items : Items) :
    Action (List (Value × Value)) := do
  let all ← items.fold [] fun v seen => do
    return ((← keyFor call key v, v) :: seen, true)
  return all.reverse

def sort (call : Caller) (given : List Value) (named : Named) : Action Value := do
  let all ← ofOption (fillParameters? ["iterable", "key", "reverse"] given named)
  let source ← ofOption (argument? "iterable" all)
  let items ← itemsOf source
  let key ← ofOption (callable? (argument? "key" all))
  let reverse ← ofOption <| match argument? "reverse" all with
    | none => some false
    | some (.bool b) => some b
    | some _ => none
  let keyed ← whileReading source (withKeys call key items)
  newList (← ask fun store => sortedBy store reverse keyed).toArray

/-- Calls a built-in function. -/
def Builtin.call (call : Caller) (f : Builtin) (given : List Value) (named : Named) :
    Action Value :=
  match f with
  | .max => best call .gt given named
  | .min => best call .lt given named
  | .sorted => sort call given named
  | .dict => do
    let cell ← newCell (.dict .empty)
    updateDict cell given named
    return .dict cell
  | .int => do
    let all ← ofOption (fillParameters? ["x", "base"] given named)
    let x ← ofOption (argument? "x" all)
    match argument? "base" all with
    | none => Builtin.int.onValues [x]
    | some base => Builtin.int.onValues [x, base]
  | .print => do
    let options ← ofOption (fillParameters? ["sep"] [] named)
    match argument? "sep" options with
    | none => return .none
    | some (.string _) => return .none
    | some _ => ofOption none
  | f => if named.isEmpty then f.onValues given else ofOption none

end LittleComputer.Expression
