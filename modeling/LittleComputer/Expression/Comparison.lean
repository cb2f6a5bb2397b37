import LittleComputer.Expression.Memory

/-!
# Comparison

Equality and order of values. Integers and floats compare by their exact values; values of different
kinds are otherwise never equal and have no order. Comparison goes at most ten levels into nested
values.
-/

namespace LittleComputer.Expression.Value

/-- Lists of the same length whose members are equal one by one. -/
def allEqual (eq : Value → Value → Option Bool) : List Value → List Value → Option Bool
  | [], [] => some true
  | x :: xs, y :: ys =>
    match eq x y with
    | some true => allEqual eq xs ys
    | result => result
  | _, _ => some false

/-- Whether the entries of a dictionary are those of another one of the same size. -/
def entriesEqual (eq : Value → Value → Option Bool) (other : Dictionary) :
    List (Value × Value) → Option Bool
  | [] => some true
  | (k, v) :: rest =>
    match k.key?.bind other.get? with
    | some w =>
      match eq v w with
      | some true => entriesEqual eq other rest
      | result => result
    | Option.none => some false

/-- Equality, at most `depth` levels deep. -/
def equalWithin (store : Store) : (depth : Nat) → Value → Value → Option Bool
  | 0, _, _ => Option.none
  | depth + 1, x, y =>
    match x, y with
    | .none, .none => some true
    | .bool a, .bool b => some (a == b)
    | .int a, .int b => some (a == b)
    | .float a, .float b => some (Binary64.order a b == .eq)
    | .int a, .float b => some (Binary64.orderInt a b == .eq)
    | .float a, .int b => some (Binary64.orderInt b a == .eq)
    | .string a, .string b => some (Bytes.equal a b)
    | .bytes a, .bytes b => some (Bytes.equal a b)
    | .tuple a, .tuple b =>
      if a.length = b.length then allEqual (equalWithin store depth) a b else some false
    | .list a, .list b => do
      let xs ← store.list? a
      let ys ← store.list? b
      if xs.size = ys.size then allEqual (equalWithin store depth) xs.toList ys.toList
      else some false
    | .dict a, .dict b => do
      let d ← store.dict? a
      let e ← store.dict? b
      if d.size = e.size then entriesEqual (equalWithin store depth) e d.toList else some false
    | .range a b s, .range c d t =>
      let m := rangeLength a b s
      some (m == rangeLength c d t && (m == 0 || (a == c && (m == 1 || s == t))))
    | .view v a, .view w b => some (v == w && Bytes.equal a b)
    | .function a .., .function b .. => some (a == b)
    | .builtin f, .builtin g => some (f == g)
    | .method a .., .method b .. => some (a == b)
    | _, _ => some false

def comparisonDepth : Nat := 10

def equal (store : Store) (x y : Value) : Option Bool := equalWithin store comparisonDepth x y

/-- Lists by their first unequal members, and by their lengths if there are none. -/
def orderLists (eq : Value → Value → Option Bool)
    (order : Value → Value → Option Ordering) :
    List Value → List Value → Option Ordering
  | [], [] => some .eq
  | [], _ :: _ => some .lt
  | _ :: _, [] => some .gt
  | x :: xs, y :: ys =>
    match eq x y with
    | some true => orderLists eq order xs ys
    | some false => order x y
    | Option.none => Option.none

/-- Order, at most `depth` levels deep; values without an order have none. -/
def orderWithin (store : Store) : (depth : Nat) → Value → Value → Option Ordering
  | 0, _, _ => Option.none
  | depth + 1, x, y =>
    match x, y with
    | .bool a, .bool b => some (compare a.toNat b.toNat)
    | .int a, .int b => some (compare a b)
    | .float a, .float b => some (Binary64.order a b)
    | .int a, .float b => some (Binary64.orderInt a b)
    | .float a, .int b => some (Binary64.orderInt b a).swap
    | .string a, .string b => some (Bytes.order a b)
    | .bytes a, .bytes b => some (Bytes.order a b)
    | .tuple a, .tuple b => orderLists (equalWithin store depth) (orderWithin store depth) a b
    | .list a, .list b => do
      let xs ← store.list? a
      let ys ← store.list? b
      orderLists (equalWithin store depth) (orderWithin store depth) xs.toList ys.toList
    | _, _ => Option.none

def order (store : Store) (x y : Value) : Option Ordering := orderWithin store comparisonDepth x y

/-- Position of the first item equal to `v`; `position` counts what has been passed. -/
def indexOf? (store : Store) (v : Value) : List Value → (position : Nat) → Option (Option Nat)
  | [], _ => some Option.none
  | x :: rest, i =>
    match equal store x v with
    | some true => some (some i)
    | some false => indexOf? store v rest (i + 1)
    | Option.none => Option.none

end LittleComputer.Expression.Value
