import LittleComputer.Expression.Binary64
import LittleComputer.Expression.Bytes
import LittleComputer.Expression.Term

/-!
# Values of expressions

Numbers, strings of bytes, tuples, ranges and functions are values by themselves. Lists and
dictionaries can change, so a value only names the cell that holds one.

A value that cannot change has a key, a list of integers that it shares with exactly the values
equal to it. An integer and a float with the same exact value are equal, so they have the same key.
-/

namespace LittleComputer.Expression

/-- Functions that belong to a value. -/
inductive Method where
  | append | capitalize | clear | codepointOrds | codepoints | count | elemOrds | elems | endsWith
  | extend | find | format | get | index | insert | isAlnum | isAlpha | isDigit | isLower | isSpace
  | isTitle | isUpper | items | join | keys | lower | lstrip | partition | pop | popItem | remove
  | removePrefix | removeSuffix | replace | rfind | rindex | rpartition | rsplit | rstrip
  | setDefault | split | splitLines | startsWith | strip | title | update | upper | values
deriving DecidableEq, Repr

namespace Method

/-- The methods of strings, in the order of their names. -/
def ofStrings : List (String × Method) :=
  [("capitalize", .capitalize), ("codepoint_ords", .codepointOrds), ("codepoints", .codepoints),
   ("count", .count), ("elem_ords", .elemOrds), ("elems", .elems), ("endswith", .endsWith),
   ("find", .find), ("format", .format), ("index", .index), ("isalnum", .isAlnum),
   ("isalpha", .isAlpha), ("isdigit", .isDigit), ("islower", .isLower), ("isspace", .isSpace),
   ("istitle", .isTitle), ("isupper", .isUpper), ("join", .join), ("lower", .lower),
   ("lstrip", .lstrip), ("partition", .partition), ("removeprefix", .removePrefix),
   ("removesuffix", .removeSuffix), ("replace", .replace), ("rfind", .rfind), ("rindex", .rindex),
   ("rpartition", .rpartition), ("rsplit", .rsplit), ("rstrip", .rstrip), ("split", .split),
   ("splitlines", .splitLines), ("startswith", .startsWith), ("strip", .strip), ("title", .title),
   ("upper", .upper)]

def ofBytes : List (String × Method) := [("elems", .elems)]

def ofLists : List (String × Method) :=
  [("append", .append), ("clear", .clear), ("extend", .extend), ("index", .index),
   ("insert", .insert), ("pop", .pop), ("remove", .remove)]

def ofDicts : List (String × Method) :=
  [("clear", .clear), ("get", .get), ("items", .items), ("keys", .keys), ("pop", .pop),
   ("popitem", .popItem), ("setdefault", .setDefault), ("update", .update), ("values", .values)]

end Method

/-- Ways to take a string apart. -/
inductive View where
  /-- Its bytes, each as a string. -/
  | elems
  /-- Its bytes as integers. -/
  | elemOrds
  /-- Its characters, each as a string. -/
  | codepoints
  /-- Its characters as integers. -/
  | codepointOrds
  /-- The bytes of a bytes value as integers. -/
  | byteElems
deriving DecidableEq, Repr

inductive Value where
  | none
  | bool (b : Bool)
  | int (v : Int)
  | float (v : Float)
  | string (content : Bytes)
  | bytes (content : Bytes)
  | tuple (items : List Value)
  /-- The list in a cell. -/
  | list (cell : Nat)
  /-- The dictionary in a cell. -/
  | dict (cell : Nat)
  | range (start stop step : Int)
  | view (v : View) (content : Bytes)
  /-- A function with its default values and the frames of the functions around it. `serial` tells
  it from every other value, `code` says where in the text it stands. -/
  | function (serial code : Nat) (name : String) (parameters : List Parameter)
      (defaults : List (String × Value)) (body : List Statement) (frames : List Nat)
  | builtin (f : Builtin)
  /-- A method with the value it belongs to. -/
  | method (serial : Nat) (self : Value) (name : String) (m : Method)

instance : Inhabited Value := ⟨.none⟩

/-- A count of 64 bits, where too large a result comes out at the other end. -/
def wrap64 (v : Int) : Int := Int.bmod v 0x10000000000000000

namespace Value

def typeName : Value → String
  | .none => "NoneType"
  | .bool _ => "bool"
  | .int _ => "int"
  | .float _ => "float"
  | .string _ => "string"
  | .bytes _ => "bytes"
  | .tuple _ => "tuple"
  | .list _ => "list"
  | .dict _ => "dict"
  | .range .. => "range"
  | .view .elems _ => "string.elems"
  | .view .elemOrds _ => "string.elems"
  | .view .codepoints _ => "string.codepoints"
  | .view .codepointOrds _ => "string.codepoints"
  | .view .byteElems _ => "bytes.elems"
  | .function .. => "function"
  | .builtin _ => "builtin_function_or_method"
  | .method .. => "builtin_function_or_method"

/-- Number of integers from `start` up to `stop`, or down to it when the step is negative. It is
counted with 64 bits; a range with more integers than that holds has another length, perhaps a
negative one. -/
def rangeLength (start stop step : Int) : Int :=
  if step > 0 then
    if start < stop then wrap64 (Int.tdiv (wrap64 (stop - 1 - start)) step + 1) else 0
  else
    if stop < start then wrap64 (Int.tdiv (wrap64 (start - 1 - stop)) (wrap64 (-step)) + 1) else 0

def rangeItem (start step : Int) (i : Nat) : Value := .int (wrap64 (start + step * (i : Int)))

/-- The methods of a value, in the order of their names. -/
def methods : Value → List (String × Method)
  | .string _ => Method.ofStrings
  | .bytes _ => Method.ofBytes
  | .list _ => Method.ofLists
  | .dict _ => Method.ofDicts
  | _ => []

/-- An integer that fits 32 bits. -/
def int32? : Value → Option Int
  | .int v => if -2147483648 ≤ v ∧ v ≤ 2147483647 then some v else Option.none
  | _ => Option.none

/-- An integer that fits 64 bits. -/
def int64? : Value → Option Int
  | .int v => if -0x8000000000000000 ≤ v ∧ v < 0x8000000000000000 then some v else Option.none
  | _ => Option.none

/-- The integer part of a number. -/
def toInt? : Value → Option Int
  | .int v => some v
  | .float v => Binary64.truncate? v
  | _ => Option.none

/-- A number as a float, infinite if it is too large. -/
def toFloat? : Value → Option Float
  | .int v =>
    some ((Binary64.ofInt? v).getD (if v < 0 then -Binary64.infinity else Binary64.infinity))
  | .float v => some v
  | _ => Option.none

def isCallable : Value → Bool
  | .function .. => true
  | .builtin _ => true
  | .method .. => true
  | _ => false

/-- Where a built-in function stands in the table. -/
def builtinNumber (f : Builtin) : Nat := Builtin.table.findIdx (·.2 == f)

/-- The key of a float: that of an integer if it is one. -/
def floatKey (x : Float) : List Int :=
  match Binary64.truncate? x with
  | some v => if Binary64.orderInt v x = .eq then [2, v] else [3, x.toBits.toNat]
  | Option.none => if x.isNaN then [3, -1] else [3, x.toBits.toNat]

mutual

/-- The key of a value that cannot change. -/
def key? : Value → Option (List Int)
  | .none => some [0]
  | .bool b => some [1, b.toNat]
  | .int v => some [2, v]
  | .float x => some (floatKey x)
  | .string s => some (4 :: (s.size : Int) :: s.toList.map fun b => (b.toNat : Int))
  | .bytes s => some (5 :: (s.size : Int) :: s.toList.map fun b => (b.toNat : Int))
  | .tuple members => (keysOf? members).map fun ks => 6 :: (members.length : Int) :: ks
  | .function serial .. => some [7, serial]
  | .method serial .. => some [7, serial]
  | .builtin f => some [8, builtinNumber f]
  | _ => Option.none

/-- The keys of values one after the other. -/
def keysOf? : List Value → Option (List Int)
  | [] => some []
  | v :: rest =>
    match v.key?, keysOf? rest with
    | some k, some ks => some (k ++ ks)
    | _, _ => Option.none

end

end Value

end LittleComputer.Expression
