/-!
# Terms and statements

The tree that an expression stands for. Names are kept as they are written until each has been
resolved: a name that is bound in the text becomes a variable, which says where its value is kept,
and every other name is replaced by what it stands for.
-/

namespace LittleComputer.Expression

inductive UnaryOperator where
  | plus | minus | complement
deriving DecidableEq, Repr

inductive BinaryOperator where
  | add | subtract | multiply | divide | floorDivide | modulo
  | bitAnd | bitOr | bitXor | shiftLeft | shiftRight
  | equal | unequal | less | lessEqual | greater | greaterEqual
  | isIn | isNotIn
deriving DecidableEq, Repr

/-- The functions that every expression can use. -/
inductive Builtin where
  | abs | all | any | bool | bytes | chr | dict | dir | enumerate | fail | float | getattr |
      hasattr | hash
  | int | len | list | max | min | ord | print | range | repr | reversed | sorted | str | tuple |
      type | zip
deriving DecidableEq, Repr

def Builtin.table : List (String × Builtin) :=
  [("abs", .abs), ("all", .all), ("any", .any), ("bool", .bool), ("bytes", .bytes), ("chr", .chr),
   ("dict", .dict), ("dir", .dir), ("enumerate", .enumerate), ("fail", .fail), ("float", .float),
   ("getattr", .getattr), ("hasattr", .hasattr), ("hash", .hash), ("int", .int), ("len", .len),
   ("list", .list), ("max", .max), ("min", .min), ("ord", .ord), ("print", .print),
     ("range", .range),
   ("repr", .repr), ("reversed", .reversed), ("sorted", .sorted), ("str", .str), ("tuple", .tuple),
   ("type", .type), ("zip", .zip)]

/-- Where the value of a bound name is kept. Every running function has a frame of its own. In a
frame the names of the function itself are those of block zero; each comprehension in it has a block
of its own, which it shares between all the times it is entered. -/
structure Variable where
  /-- How many functions outward the frame is. -/
  level : Nat
  block : Nat
  name : String
deriving DecidableEq, Repr, Inhabited

mutual

inductive Term where
  /-- A name that has not been resolved. -/
  | name (s : String)
  | bound (v : Variable)
  | builtin (f : Builtin)
  | none
  | bool (b : Bool)
  | int (v : Int)
  /-- The number `digits * 10 ^ exponent`, in floating point. -/
  | float (digits : Nat) (exponent : Int)
  | string (content : List UInt8)
  | bytes (content : List UInt8)
  | paren (t : Term)
  | tuple (items : List Term)
  | list (items : List Term)
  | dict (entries : List (Term × Term))
  | unary (op : UnaryOperator) (t : Term)
  | binary (op : BinaryOperator) (l r : Term)
  | not (t : Term)
  | and (l r : Term)
  | or (l r : Term)
  | conditional (test yes no : Term)
  | field (t : Term) (name : String)
  | index (t i : Term)
  /-- A bound that is not given is `None`. -/
  | slice (t low high step : Term)
  | call (f : Term) (arguments : List Argument)
  /-- A function; `code` tells it from every other function of the expression. -/
  | lambda (code : Nat) (parameters : List Parameter) (body : Term)
  /-- A comprehension; `code` is the number of its block. -/
  | listOf (code : Nat) (item : Term) (clauses : List Clause)
  | dictOf (code : Nat) (key value : Term) (clauses : List Clause)

inductive Argument where
  | positional (t : Term)
  | named (name : String) (t : Term)
  /-- The items of `t`, each by position. -/
  | spread (t : Term)
  /-- The entries of `t`, each by name. -/
  | spreadNamed (t : Term)

inductive Parameter where
  | required (name : String)
  | optional (name : String) (value : Term)
  /-- Takes what is left by position. Without a name it takes nothing, and what follows must be
  given by name. -/
  | gather (name : Option String)
  /-- Takes what is left by name. -/
  | gatherNamed (name : String)

inductive Clause where
  | each (target : Target) (source : Term)
  | given (test : Term)

/-- What a value is assigned to: a name, one target for each of its items, or a part of another
value. -/
inductive Target where
  | name (s : String)
  | bound (v : Variable)
  | items (targets : List Target)
  | index (t i : Term)
  | field (t : Term) (name : String)

end

instance : Inhabited Term := ⟨.none⟩

inductive Statement where
  | assign (target : Target) (value : Term)
  /-- Assigns what an operator makes of the present value and another one. -/
  | update (op : BinaryOperator) (target : Target) (value : Term)
  | evaluate (t : Term)
  /-- Leaves the innermost loop. -/
  | leave
  /-- Goes on with the next item of the innermost loop. -/
  | again
  /-- Ends the function with a value. -/
  | give (t : Term)
  | choose (test : Term) (yes no : List Statement)
  | each (target : Target) (source : Term) (body : List Statement)
  /-- Assigns a function; `code` tells it from every other function of the text. -/
  | define (target : Target) (code : Nat) (name : String) (parameters : List Parameter)
      (body : List Statement)

mutual

/-- The names that a target binds. -/
def Target.names : Target → List String
  | .name s => [s]
  | .items targets => Target.namesAll targets
  | _ => []

def Target.namesAll : List Target → List String
  | [] => []
  | t :: rest => t.names ++ Target.namesAll rest

end

mutual

/-- Reads a term as a target: a name, a list or a tuple of targets, an item or a field. -/
def Term.target? : Term → Option Target
  | .name s => some (.name s)
  | .paren t => t.target?
  | .tuple items => (Term.targets? items).map .items
  | .list items => (Term.targets? items).map .items
  | .index t i => some (.index t i)
  | .field t s => some (.field t s)
  | _ => Option.none

def Term.targets? : List Term → Option (List Target)
  | [] => some []
  | t :: rest =>
    match t.target?, Term.targets? rest with
    | some x, some xs => some (x :: xs)
    | _, _ => Option.none

end

/-- The names that the clauses of a comprehension bind. -/
def Clause.namesAll : List Clause → List String
  | [] => []
  | .each target _ :: rest => target.names ++ Clause.namesAll rest
  | .given _ :: rest => Clause.namesAll rest

def Parameter.name? : Parameter → Option String
  | .required s => some s
  | .optional s _ => some s
  | .gather s => s
  | .gatherNamed s => some s

mutual

/-- The names that a statement binds in the function it stands in. -/
def Statement.names : Statement → List String
  | .assign target _ => target.names
  | .update _ target _ => target.names
  | .choose _ yes no => Statement.namesAll yes ++ Statement.namesAll no
  | .each target _ body => target.names ++ Statement.namesAll body
  | .define target _ _ _ _ => target.names
  | _ => []

def Statement.namesAll : List Statement → List String
  | [] => []
  | s :: rest => s.names ++ Statement.namesAll rest

end

end LittleComputer.Expression
