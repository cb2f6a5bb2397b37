import LittleComputer.Expression.Term

/-!
# Names

A name in a text is bound by a parameter, by a comprehension, or by a statement of the function it
stands in or of the text itself; otherwise it is free. `Statement.closeText?` resolves the names of
a text: bound ones become variables, built-in ones what they stand for, and the others the integer
that the surroundings give them. A name that nothing gives a meaning is refused wherever it stands,
also where it would never be evaluated. So is a call or a function whose arguments or parameters are
out of order, and a statement that stands where it may not.

What is left holds no free name: its value does not depend on the surroundings any more.
-/

namespace LittleComputer.Expression

/-- What a built-in name stands for. -/
def builtinTerm? (name : String) : Option Term :=
  if name = "None" then some .none
  else if name = "True" then some (.bool true)
  else if name = "False" then some (.bool false)
  else (Builtin.table.lookup name).map .builtin

/-- Arguments by position come first, then those by name, then one spread of each kind. -/
def Argument.rank : Argument → Nat
  | .positional _ => 0
  | .named _ _ => 1
  | .spread _ => 2
  | .spreadNamed _ => 3

def Argument.areOrdered : List Argument → Bool
  | a :: b :: rest =>
    (a.rank < b.rank || (a.rank == b.rank && a.rank < 2)) && Argument.areOrdered (b :: rest)
  | _ => true

def Argument.name? : Argument → Option String
  | .named s _ => some s
  | _ => Option.none

/-- Whether no member of a list occurs twice. -/
def areDistinct : List String → Bool
  | [] => true
  | s :: rest => !rest.contains s && areDistinct rest

/-- A call takes at most 255 arguments of each kind, and no name twice. -/
def Argument.areAllowed (as : List Argument) : Bool :=
  Argument.areOrdered as && areDistinct (as.filterMap Argument.name?) &&
    as.countP (·.rank == 0) < 256 && as.countP (·.rank == 1) < 256

/-- How far the parameters of a function have come. -/
inductive Parameter.Stage where
  | start
  | optional
  /-- Behind a star without a name, which needs a parameter behind it. -/
  | bareStar
  | byName
  | done
deriving DecidableEq

/-- Checks the order of parameters. -/
def Parameter.areOrdered : Parameter.Stage → List Parameter → Bool
  | stage, [] => stage != .bareStar
  | .done, _ :: _ => false
  | stage, .required _ :: rest =>
    match stage with
    | .optional => false
    | .start => Parameter.areOrdered .start rest
    | _ => Parameter.areOrdered .byName rest
  | stage, .optional _ _ :: rest =>
    match stage with
    | .start | .optional => Parameter.areOrdered .optional rest
    | _ => Parameter.areOrdered .byName rest
  | stage, .gather name :: more =>
    match stage with
    | .start | .optional => Parameter.areOrdered (if name.isSome then .byName else .bareStar) more
    | _ => false
  | stage, .gatherNamed _ :: more => stage != .bareStar && Parameter.areOrdered .done more

def Parameter.areAllowed (ps : List Parameter) : Bool :=
  Parameter.areOrdered .start ps && areDistinct (ps.filterMap Parameter.name?)

/-- The names that one block of a function binds. -/
structure Block where
  id : Nat
  names : List String

/-- What is bound around a term: for each function around it, innermost first, its blocks. -/
abbrev Bindings := List (List Block)

namespace Bindings

/-- The variable that a name means, found `level` functions outward or further. -/
def findFrom? (s : String) : (level : Nat) → Bindings → Option Variable
  | _, [] => none
  | level, blocks :: outer =>
    match blocks.find? fun b => b.names.contains s with
    | some b => some ⟨level, b.id, s⟩
    | none => findFrom? s (level + 1) outer

def find? (bindings : Bindings) (s : String) : Option Variable := findFrom? s 0 bindings

/-- Bindings inside a comprehension. -/
def inside (code : Nat) (names : List String) : Bindings → Bindings
  | blocks :: outer => (⟨code, names⟩ :: blocks) :: outer
  | [] => [[⟨code, names⟩]]

/-- Bindings in the body of a function. -/
def within (names : List String) (bindings : Bindings) : Bindings := [⟨0, names⟩] :: bindings

end Bindings

mutual

/-- Resolves the names of a term, given what is bound around it. -/
def Term.close? (free : String → Option Int) (around : Bindings) : Term → Option Term
  | .name s =>
    match around.find? s with
    | some v => some (.bound v)
    | Option.none =>
      match builtinTerm? s with
      | some t => some t
      | Option.none => (free s).map .int
  | .bound v => some (.bound v)
  | .builtin f => some (.builtin f)
  | .none => some .none
  | .bool b => some (.bool b)
  | .int v => some (.int v)
  | .float m e => some (.float m e)
  | .string s => some (.string s)
  | .bytes s => some (.bytes s)
  | .paren t => do return .paren (← t.close? free around)
  | .tuple items => do return .tuple (← Term.closeAll? free around items)
  | .list items => do return .list (← Term.closeAll? free around items)
  | .dict entries => do return .dict (← Term.closeEntries? free around entries)
  | .unary op t => do return .unary op (← t.close? free around)
  | .binary op l r => do return .binary op (← l.close? free around) (← r.close? free around)
  | .not t => do return .not (← t.close? free around)
  | .and l r => do return .and (← l.close? free around) (← r.close? free around)
  | .or l r => do return .or (← l.close? free around) (← r.close? free around)
  | .conditional c x y => do
    return .conditional (← c.close? free around) (← x.close? free around)
      (← y.close? free around)
  | .field t s => do return .field (← t.close? free around) s
  | .index t i => do return .index (← t.close? free around) (← i.close? free around)
  | .slice t low high step => do
    return .slice (← t.close? free around) (← low.close? free around)
      (← high.close? free around)
      (← step.close? free around)
  | .call f as => do
    if Argument.areAllowed as then
      return .call (← f.close? free around) (← Term.closeArguments? free around as)
    else Option.none
  | .lambda code ps body => do
    if Parameter.areAllowed ps then
      return .lambda code (← Term.closeParameters? free around ps)
        (← body.close? free (around.within (ps.filterMap Parameter.name?)))
    else Option.none
  | .listOf code item cs => do
    let inner := around.inside code (Clause.namesAll cs)
    return .listOf code (← item.close? free inner) (← Term.closeClauses? free around inner cs)
  | .dictOf code k v cs => do
    let inner := around.inside code (Clause.namesAll cs)
    return .dictOf code (← k.close? free inner) (← v.close? free inner)
      (← Term.closeClauses? free around inner cs)

def Term.closeAll? (free : String → Option Int) (around : Bindings) :
    List Term → Option (List Term)
  | [] => some []
  | t :: rest => do return (← t.close? free around) :: (← Term.closeAll? free around rest)

def Term.closeEntries? (free : String → Option Int) (around : Bindings) :
    List (Term × Term) → Option (List (Term × Term))
  | [] => some []
  | (k, v) :: rest => do
    return (← k.close? free around,
      ← v.close? free around) :: (← Term.closeEntries? free around rest)

def Term.closeArguments? (free : String → Option Int) (around : Bindings) :
    List Argument → Option (List Argument)
  | [] => some []
  | .positional t :: rest => do
    return .positional (← t.close? free around) :: (← Term.closeArguments? free around rest)
  | .named s t :: rest => do
    return .named s (← t.close? free around) :: (← Term.closeArguments? free around rest)
  | .spread t :: rest => do
    return .spread (← t.close? free around) :: (← Term.closeArguments? free around rest)
  | .spreadNamed t :: rest => do
    return .spreadNamed (← t.close? free around) :: (← Term.closeArguments? free around rest)

/-- Default values belong to the surroundings of the function. -/
def Term.closeParameters? (free : String → Option Int) (around : Bindings) :
    List Parameter → Option (List Parameter)
  | [] => some []
  | .required s :: rest => do return .required s :: (← Term.closeParameters? free around rest)
  | .optional s t :: rest => do
    return .optional s (← t.close? free around) :: (← Term.closeParameters? free around rest)
  | .gather s :: more => do return .gather s :: (← Term.closeParameters? free around more)
  | .gatherNamed s :: more  => do
    return .gatherNamed s :: (← Term.closeParameters? free around more)

/-- The source of the first clause belongs to the surroundings of the comprehension, `outer`;
everything else sees the names it binds. -/
def Term.closeClauses? (free : String → Option Int) (outer inner : Bindings) :
    List Clause → Option (List Clause)
  | [] => some []
  | .each target t :: rest => do
    return .each (← target.close? free inner) (← t.close? free outer) ::
      (← Term.closeClauses? free inner inner rest)
  | .given t :: rest => do
    return .given (← t.close? free outer) :: (← Term.closeClauses? free inner inner rest)

def Target.close? (free : String → Option Int) (around : Bindings) : Target → Option Target
  | .name s => (around.find? s).map .bound
  | .bound v => some (.bound v)
  | .items targets => do return .items (← Target.closeAll? free around targets)
  | .index t i => do return .index (← t.close? free around) (← i.close? free around)
  | .field t s => do return .field (← t.close? free around) s

def Target.closeAll? (free : String → Option Int) (around : Bindings) :
    List Target → Option (List Target)
  | [] => some []
  | t :: rest => do return (← t.close? free around) :: (← Target.closeAll? free around rest)

end

/-- What stands around a statement: the text itself, a function, or a loop in a function. -/
inductive Place where
  | text
  | function
  | loop
deriving DecidableEq

mutual

/-- Resolves the names of a statement. Conditions, loops and the end of a function stand in
functions only, and the two ways to end a turn of a loop in loops. -/
def Statement.close? (free : String → Option Int) (around : Bindings) (place : Place) :
    Statement → Option Statement
  | .assign target t => do return .assign (← target.close? free around) (← t.close? free around)
  | .update op target t => do
    return .update op (← target.close? free around) (← t.close? free around)
  | .evaluate t => do return .evaluate (← t.close? free around)
  | .leave => if place = .loop then some .leave else none
  | .again => if place = .loop then some .again else none
  | .give t => do
    if place = .text then none else return .give (← t.close? free around)
  | .choose test yes no => do
    if place = .text then none
    else
      return .choose (← test.close? free around) (← Statement.closeAll? free around place yes)
        (← Statement.closeAll? free around place no)
  | .each target source body => do
    if place = .text then none
    else
      return .each (← target.close? free around) (← source.close? free around)
        (← Statement.closeAll? free around .loop body)
  | .define target code name ps body => do
    if Parameter.areAllowed ps then
      let names := ps.filterMap Parameter.name? ++ Statement.namesAll body
      return .define (← target.close? free around) code name
        (← Term.closeParameters? free around ps)
        (← Statement.closeAll? free (around.within names) .function body)
    else none

def Statement.closeAll? (free : String → Option Int) (around : Bindings) (place : Place) :
    List Statement → Option (List Statement)
  | [] => some []
  | s :: rest => do
    return (← s.close? free around place) :: (← Statement.closeAll? free around place rest)

end

/-- Resolves the names of a text. No name of the text itself may be assigned twice. -/
def Statement.closeText? (free : String → Option Int) (text : List Statement) :
    Option (List Statement) :=
  let names := Statement.namesAll text
  if areDistinct names then Statement.closeAll? free (Bindings.within names []) .text text else none

end LittleComputer.Expression
