import LittleComputer.Expression.Comparison
import LittleComputer.Expression.Template

/-!
# Operators on values

Arithmetic, comparison, membership, indexing and slicing. Integers have any size; an operation on an
integer and a float is done in floating point. An operator that does not apply to its operands has
no result.
-/

namespace LittleComputer.Expression

/-- The bits of two integers combined one by one, each taken with as many bits as both need. -/
def combineBits (f : (w : Nat) → BitVec w → BitVec w → BitVec w) (a b : Int) : Int :=
  let w := max a.natAbs.log2 b.natAbs.log2 + 2
  (f w (BitVec.ofInt w a) (BitVec.ofInt w b)).toInt

/-- Rounds down. -/
def floorDivide? (a b : Int) : Option Int := if b = 0 then none else some (Int.fdiv a b)

/-- The remainder of `floorDivide?`, which has the sign of the divisor. -/
def modulo? (a b : Int) : Option Int := if b = 0 then none else some (Int.fmod a b)

/-- Shifts to the left go up to 511 places. -/
def shiftLeft? (a count : Int) : Option Int :=
  if 0 ≤ count ∧ count < 512 then some (a * Nat.pow 2 count.toNat) else none

def shiftRight? (a count : Int) : Option Int :=
  if 0 ≤ count then some (a >>> count.toNat) else none

/-- What an operator does with two integers, if it gives a number. -/
def BinaryOperator.onInts (op : BinaryOperator) (a b : Int) : Option Value :=
  match op with
  | .add => some (.int (a + b))
  | .subtract => some (.int (a - b))
  | .multiply => some (.int (a * b))
  | .divide => do
    let x ← Binary64.ofInt? a
    let y ← Binary64.ofInt? b
    if b = 0 then none else some (.float (x / y))
  | .floorDivide => (floorDivide? a b).map .int
  | .modulo => (modulo? a b).map .int
  | .bitAnd => some (.int (combineBits (fun _ => (· &&& ·)) a b))
  | .bitOr => some (.int (combineBits (fun _ => (· ||| ·)) a b))
  | .bitXor => some (.int (combineBits (fun _ => (· ^^^ ·)) a b))
  | .shiftLeft => do some (.int (← shiftLeft? a (← (Value.int b).int32?)))
  | .shiftRight => do some (.int (← shiftRight? a (← (Value.int b).int32?)))
  | _ => none

/-- What an operator does with two floats, if it gives a number. -/
def BinaryOperator.onFloats (op : BinaryOperator) (x y : Float) : Option Value :=
  match op with
  | .add => some (.float (x + y))
  | .subtract => some (.float (x - y))
  | .multiply => some (.float (x * y))
  | .divide => if y == 0.0 then none else some (.float (x / y))
  | .floorDivide => if y == 0.0 then none else some (.float (x / y).floor)
  | .modulo => if y == 0.0 then none else some (.float (Binary64.modulo x y))
  | _ => none

/-- Results of repetition have fewer items than this. -/
def repetitionLimit : Nat := 0x40000000

/-- How often to repeat something of a length; a count below one means not at all. -/
def repetitions? (length : Nat) (count : Int) : Option Nat :=
  if length = 0 then some 0
  else
    match (Value.int count).int32? with
    | none => none
    | some n =>
      if n < 1 then some 0
      else if length * n.toNat < repetitionLimit then some n.toNat
      else none

/-- A list repeated. -/
def repeatedList {α : Type} (members : List α) : (count : Nat) → (seen : List α) → List α
  | 0, seen => seen
  | count + 1, seen => repeatedList members count (members ++ seen)

def repeatedBytes? (s : Bytes) (count : Int) : Option Bytes :=
  (repetitions? s.size count).map s.repeated

def repeatedTuple? (members : List Value) (count : Int) : Option (List Value) :=
  (repetitions? members.length count).map fun n => repeatedList members n []

/-- Whether `x` is in `y`. -/
def isItemOf (store : Store) (x y : Value) : Option Bool :=
  match y with
  | .list cell => do
    let members ← store.list? cell
    (Value.indexOf? store x members.toList 0).map Option.isSome
  | .tuple members => (Value.indexOf? store x members 0).map Option.isSome
  | .dict cell => (store.dict? cell).map fun d => (x.key?.bind d.get?).isSome
  | .string whole =>
    match x with
    | .string part => some (Bytes.first? part whole).isSome
    | _ => none
  | .bytes whole =>
    match x with
    | .bytes part => some (Bytes.first? part whole).isSome
    | .int b => if 0 ≤ b ∧ b <
        256 then some (Bytes.first? (Bytes.ofList [b.toNat.toUInt8]) whole).isSome else none
    | _ => none
  | .range start stop step => do
    let v ← x.toInt?
    match (Value.int v).int32? with
    | none => some false
    | some v =>
      let away := wrap64 (v - start)
      let i := wrap64 (Int.tdiv away step)
      some (Int.tmod away step = 0 ∧ 0 ≤ i ∧ i < Value.rangeLength start stop step)
  | _ => none

/-- The operators that give a number, or a sequence made of sequences. -/
def BinaryOperator.combine (op : BinaryOperator) (x y : Value) : Action Value :=
  match op, x, y with
  | op, .int a, .int b => ofOption (op.onInts a b)
  | op, .float a, .float b => ofOption (op.onFloats a b)
  | op, .int a, .float b => ofOption do op.onFloats (← Binary64.ofInt? a) b
  | op, .float a, .int b => ofOption do op.onFloats a (← Binary64.ofInt? b)
  | .add, .string a, .string b => ofOption (some (.string (a ++ b)))
  | .add, .bytes a, .bytes b => ofOption (some (.bytes (a ++ b)))
  | .add, .tuple a, .tuple b => ofOption (some (.tuple (a ++ b)))
  | .add, .list a, .list b => do
    let xs ← ask (·.list? a)
    let ys ← ask (·.list? b)
    newList (xs ++ ys)
  | .multiply, .string a, .int n => ofOption ((repeatedBytes? a n).map .string)
  | .multiply, .int n, .string a => ofOption ((repeatedBytes? a n).map .string)
  | .multiply, .bytes a, .int n => ofOption ((repeatedBytes? a n).map .bytes)
  | .multiply, .int n, .bytes a => ofOption ((repeatedBytes? a n).map .bytes)
  | .multiply, .tuple a, .int n => ofOption ((repeatedTuple? a n).map .tuple)
  | .multiply, .int n, .tuple a => ofOption ((repeatedTuple? a n).map .tuple)
  | .multiply, .list a, .int n => listTimes a n
  | .multiply, .int n, .list a => listTimes a n
  | .modulo, .string template, v => ask fun store =>
    (fill? store template.toList v).map fun s => .string (Bytes.ofList s)
  | .bitOr, .dict a, .dict b => do
    let d ← ask (·.dict? a)
    let e ← ask (·.dict? b)
    newDict (← ofOption (d.insertAll? e.toList))
  | _, _, _ => ofOption none
where
  listTimes (cell : Nat) (n : Int) : Action Value := do
    let members ← ask (·.list? cell)
    newList (← ofOption (repeatedTuple? members.toList n)).toArray

def BinaryOperator.apply (op : BinaryOperator) (x y : Value) : Action Value :=
  match op with
  | .equal => ask fun store => (Value.equal store x y).map .bool
  | .unequal => ask fun store => (Value.equal store x y).map fun b => .bool !b
  | .less => ask fun store => (Value.order store x y).map fun o => .bool (o == .lt)
  | .lessEqual => ask fun store => (Value.order store x y).map fun o => .bool (o != .gt)
  | .greater => ask fun store => (Value.order store x y).map fun o => .bool (o == .gt)
  | .greaterEqual => ask fun store => (Value.order store x y).map fun o => .bool (o != .lt)
  | .isIn => ask fun store => (isItemOf store x y).map .bool
  | .isNotIn => ask fun store => (isItemOf store x y).map fun b => .bool !b
  | op => op.combine x y

/-- What an update makes of the present value. A list takes the items of another value at its end,
and a dictionary the entries of another one, without becoming another value. -/
def BinaryOperator.update (op : BinaryOperator) (x y : Value) : Action Value := do
  match op, x, y with
  | .add, .list cell, y =>
    match ← ask fun store => some (y.items? store) with
    | some items =>
      changeList cell (· ++ items.toArray)
      return x
    | none => op.apply x y
  | .bitOr, .dict cell, .dict other =>
    let d ← ask (·.dict? other)
    checkChange cell
    setKeys cell d.toList
    return x
  | op, x, y => op.apply x y

def UnaryOperator.apply (op : UnaryOperator) (x : Value) : Option Value :=
  match op, x with
  | .plus, .int v => some (.int v)
  | .plus, .float v => some (.float v)
  | .minus, .int v => some (.int (-v))
  | .minus, .float v => some (.float (-v))
  | .complement, .int v => some (.int (-v - 1))
  | _, _ => none

/-- The position that an index means in a sequence; a negative one counts from the end. -/
def position? (length : Int) (i : Int) : Option Nat :=
  let i := if i < 0 then i + length else i
  if 0 ≤ i ∧ i < length then some i.toNat else none

/-- The item of a value at an index or under a key. -/
def itemAt? (store : Store) (x i : Value) : Option Value :=
  match x with
  | .dict cell => do (← store.dict? cell).get? (← i.key?)
  | .string s => do
    let n ← position? s.size (← i.int32?)
    some (.string (s.part n (n + 1)))
  | .bytes s => do
    let n ← position? s.size (← i.int32?)
    some (.bytes (s.part n (n + 1)))
  | .list cell => do
    let members ← store.list? cell
    members[← position? members.size (← i.int32?)]?
  | .tuple members => do members[← position? members.length (← i.int32?)]?
  | .range start stop step => do
    let n ← position? (Value.rangeLength start stop step) (← i.int32?)
    some (Value.rangeItem start step n)
  | .view .elems s => do
    let n ← position? s.size (← i.int32?)
    some (.string (s.part n (n + 1)))
  | .view .elemOrds s => do
    let n ← position? s.size (← i.int32?)
    some (.int (s.byteAt n).toNat)
  | _ => none

/-- Sets the item of a list or a dictionary. -/
def setItem (x i v : Value) : Action Unit := do
  match x with
  | .dict cell => setKey cell i v
  | .list cell =>
    let members ← ask (·.list? cell)
    let n ← ofOption do position? members.size (← i.int32?)
    changeList cell fun members => members.setIfInBounds n v
  | _ => ofOption none

/-- A bound of a slice, `None` for the one that is meant by default. -/
def bound? (length : Int) (default : Int) : Value → Option Int
  | .none => some default
  | v => do
    let i ← v.int32?
    some (if i < 0 then i + length else i)

/-- Puts a bound between zero and the length. -/
def clamp (length i : Int) : Int := if i < 0 then 0 else if i > length then length else i

/-- First position, end and step of a slice of a sequence. -/
def sliceBounds? (length : Int) (low high step : Value) : Option (Int × Int × Int) := do
  let step ← match step with
    | .none => some 1
    | v => v.int32?
  if step = 0 then none
  else if step > 0 then
    let start := clamp length (← bound? length 0 low)
    let stop := clamp length (← bound? length length high)
    some (start, max start stop, step)
  else
    let start := min (← bound? length (length - 1) low) (length - 1)
    let stop := max (← bound? length (-1) high) (-1)
    some (max start stop, stop, step)

/-- The members of a list at the positions of a slice. -/
def pick {α : Type} (members : Array α) (start stop step : Int) : Array α :=
  (Array.range (Value.rangeLength start stop step).toNat).filterMap fun (i : Nat) =>
    members[(start + step * (i : Int)).toNat]?

/-- The part of a sequence between two positions. -/
def slice (x low high step : Value) : Action Value := do
  match x with
  | .string s =>
    let (start, stop, step) ← ofOption (sliceBounds? s.size low high step)
    return .string (s.pick start step (Value.rangeLength start stop step).toNat)
  | .bytes s =>
    let (start, stop, step) ← ofOption (sliceBounds? s.size low high step)
    return .bytes (s.pick start step (Value.rangeLength start stop step).toNat)
  | .tuple members =>
    let (start, stop, step) ← ofOption (sliceBounds? members.length low high step)
    return .tuple (pick members.toArray start stop step).toList
  | .list cell =>
    let members ← ask (·.list? cell)
    let (start, stop, step) ← ofOption (sliceBounds? members.size low high step)
    newList (pick members start stop step)
  | .range first last gap =>
    let length := Value.rangeLength first last gap
    let (start, stop, step) ← ofOption (sliceBounds? length low high step)
    let inner := wrap64 (gap * step)
    -- A step that wraps around to zero is not foreseen.
    if inner = 0 then throw (.crash "rangeLen: zero step")
    else return .range (wrap64 (first + gap * start)) (wrap64 (first + gap * stop)) inner
  | _ => ofOption none

end LittleComputer.Expression
