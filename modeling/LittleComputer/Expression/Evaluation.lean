import LittleComputer.Expression.Library
import LittleComputer.Expression.Names
import LittleComputer.Expression.Statement
import LittleComputer.Operand.Interpreter

/-!
# Evaluation

`Term.eval` and `Statement.run` follow the tree of a text. Variables live in frames, so that a
function sees what its names hold when it is called. A call is made through a `Caller`, which
`callWithin` builds for a bounded depth of calls; a function may not be called while it is running,
so the depth is bounded by the length of the text.

`execute` is the whole way from a text to what its result is. It is the interpreter of the program.
-/

namespace LittleComputer.Expression

/-! ## Variables -/

/-- The frames of the running function and of those around it, innermost first. -/
abbrev Environment := List Nat

/-- Adds a frame with the given variables. -/
def newFrame (frame : Frame) : Action Nat := fun store =>
  .ok (store.frames.size, { store with frames := store.frames.push frame })

/-- The value of a variable, if it has one yet. -/
def readVariable (env : Environment) (v : Variable) : Action Value := ask fun store => do
  let frame ← store.frames[← env[v.level]?]?
  frame.lookup (v.block, v.name)

/-- A frame with a variable set. -/
def Frame.set (block : Nat) (name : String) (v : Value) : Frame → Frame
  | [] => [((block, name), v)]
  | ((b, s), w) :: rest =>
    if b = block ∧ s = name then ((b, s), v) :: rest
    else ((b, s), w) :: Frame.set block name v rest

def writeVariable (env : Environment) (v : Variable) (value : Value) : Action Unit := do
  let frame ← ofOption env[v.level]?
  modify fun store =>
    { store with frames := store.frames.modify frame (Frame.set v.block v.name value) }

/-! ## Terms -/

/-- Arguments by name from a dictionary whose keys are strings. -/
def namedEntries? : List (Value × Value) → Option Named
  | [] => some []
  | (.string s, v) :: rest => (namedEntries? rest).map ((s.toList, v) :: ·)
  | _ => none

/-- A dictionary that is written out; a key is written once. -/
def freshDict? (d : Dictionary) : List (Value × Value) → Option Dictionary
  | [] => some d
  | (k, v) :: rest =>
    match k.key? with
    | some key => if (d.get? key).isNone then freshDict? (d.insert key k v) rest else none
    | none => none

/-- The name that a function without one is known by. -/
def lambdaName : String := "lambda"

mutual

def Term.eval (call : Caller) (env : Environment) : Term → Action Value
  | .name _ => ofOption Option.none
  | .bound v => readVariable env v
  | .builtin f => ofOption (some (.builtin f))
  | .none => ofOption (some .none)
  | .bool b => ofOption (some (.bool b))
  | .int v => ofOption (some (.int v))
  | .float digits exponent => ofOption (some (.float (Binary64.ofDecimal digits exponent)))
  | .string s => ofOption (some (.string (Bytes.ofList s)))
  | .bytes s => ofOption (some (.bytes (Bytes.ofList s)))
  | .paren t => t.eval call env
  | .tuple items => do return .tuple (← Term.evalAll call env items)
  | .list items => do newList (← Term.evalAll call env items).toArray
  | .dict entries => do
    let entries ← Term.evalEntries call env entries
    newDict (← ofOption (freshDict? .empty entries))
  | .unary op t => do ofOption (op.apply (← t.eval call env))
  | .binary op l r => do op.apply (← l.eval call env) (← r.eval call env)
  | .not t => do return .bool !(← truthOf (← t.eval call env))
  | .and l r => do
    let v ← l.eval call env
    if ← truthOf v then r.eval call env else return v
  | .or l r => do
    let v ← l.eval call env
    if ← truthOf v then return v else r.eval call env
  | .conditional test yes no => do
    if ← truthOf (← test.eval call env) then yes.eval call env else no.eval call env
  | .field t s => do method (← t.eval call env) s
  | .index t i => do
    let x ← t.eval call env
    let i ← i.eval call env
    ask fun store => itemAt? store x i
  | .slice t low high step => do
    slice (← t.eval call env) (← low.eval call env) (← high.eval call env)
      (← step.eval call env)
  | .call f arguments => do
    let f ← f.eval call env
    let (given, named) ← Term.evalArguments call env arguments
    call f given named
  | .lambda code parameters body => do
    let defaults ← Term.evalDefaults call env parameters
    return .function (← newSerial) code lambdaName parameters defaults [.give body] env
  | .listOf _ item clauses => do
    let cell ← newCell (.list #[])
    Term.evalClauses call env (do
      let v ← item.eval call env
      changeList cell (·.push v)) clauses
    return .list cell
  | .dictOf _ key value clauses => do
    let cell ← newCell (.dict .empty)
    Term.evalClauses call env (do
      let k ← key.eval call env
      let v ← value.eval call env
      setKey cell k v) clauses
    return .dict cell

def Term.evalAll (call : Caller) (env : Environment) : List Term → Action (List Value)
  | [] => ofOption (some [])
  | t :: rest => do return (← t.eval call env) :: (← Term.evalAll call env rest)

def Term.evalEntries (call : Caller) (env : Environment) :
    List (Term × Term) → Action (List (Value × Value))
  | [] => ofOption (some [])
  | (k, v) :: rest => do
    return (← k.eval call env, ← v.eval call env) :: (← Term.evalEntries call env rest)

/-- The arguments of a call: those by position, and those by name. -/
def Term.evalArguments (call : Caller) (env : Environment) :
    List Argument → Action (List Value × Named)
  | [] => ofOption (some ([], []))
  | .positional t :: rest => do
    let v ← t.eval call env
    let (given, named) ← Term.evalArguments call env rest
    return (v :: given, named)
  | .named s t :: rest => do
    let v ← t.eval call env
    let (given, named) ← Term.evalArguments call env rest
    return (given, (utf8 s.toList, v) :: named)
  | .spread t :: rest => do
    let v ← t.eval call env
    let (given, named) ← Term.evalArguments call env rest
    let items ← itemsOf v
    return (items.toList ++ given, named)
  | .spreadNamed t :: rest => do
    let v ← t.eval call env
    let (given, named) ← Term.evalArguments call env rest
    match v with
    | .dict cell =>
      let d ← ask (·.dict? cell)
      return (given, (← ofOption (namedEntries? d.toList)) ++ named)
    | _ => ofOption Option.none

/-- Default values are those at the time when the function is made. -/
def Term.evalDefaults (call : Caller) (env : Environment) :
    List Parameter → Action (List (String × Value))
  | [] => ofOption (some [])
  | .optional s t :: rest => do
    return (s, ← t.eval call env) :: (← Term.evalDefaults call env rest)
  | .required _ :: rest => Term.evalDefaults call env rest
  | .gather _ :: more => Term.evalDefaults call env more
  | .gatherNamed _ :: more => Term.evalDefaults call env more

/-- Runs `emit` for every way through the clauses of a comprehension. -/
def Term.evalClauses (call : Caller) (env : Environment) (emit : Action Unit) :
    List Clause → Action Unit
  | [] => emit
  | .each target source :: rest => do
    let v ← source.eval call env
    let items ← itemsOf v
    whileReading v (items.fold () fun x _ => do
      target.assign call env x
      Term.evalClauses call env emit rest
      return ((), true))
  | .given test :: rest => do
    if ← truthOf (← test.eval call env) then Term.evalClauses call env emit rest
    else ofOption (some ())

/-- Assigns a value to a target. -/
def Target.assign (call : Caller) (env : Environment) : Target → Value → Action Unit
  | .name _, _ => ofOption Option.none
  | .bound x, v => writeVariable env x v
  | .items targets, v => do
    let items ← itemsOf v
    if items.size = targets.length then Target.assignAll call env targets items.toList
    else ofOption Option.none
  | .index t i, v => do
    let x ← t.eval call env
    let i ← i.eval call env
    setItem x i v
  | .field t _, _ => do
    let _ ← t.eval call env
    ofOption Option.none

def Target.assignAll (call : Caller) (env : Environment) :
    List Target → List Value → Action Unit
  | [], [] => ofOption (some ())
  | t :: targets, v :: members => do
    t.assign call env v
    Target.assignAll call env targets members
  | _, _ => ofOption Option.none

end

/-! ## Statements -/

/-- How a statement ends. -/
inductive Flow where
  | next
  | leave
  | again
  | give (v : Value)

/-- Assigns what an operator makes of the present value of a target and another one. The parts of
the target are evaluated once. -/
def Target.update (call : Caller) (env : Environment) (op : BinaryOperator) (t : Term) :
    Target → Action Unit
  | .bound x => do
    let old ← readVariable env x
    let v ← t.eval call env
    writeVariable env x (← op.update old v)
  | .index base i => do
    let x ← base.eval call env
    let i ← i.eval call env
    let old ← ask fun store => itemAt? store x i
    let v ← t.eval call env
    setItem x i (← op.update old v)
  | _ => ofOption none

mutual

def Statement.run (call : Caller) (env : Environment) : Statement → Action Flow
  | .assign target t => do
    target.assign call env (← t.eval call env)
    return .next
  | .update op target t => do
    target.update call env op t
    return .next
  | .evaluate t => do
    let _ ← t.eval call env
    return .next
  | .leave => return .leave
  | .again => return .again
  | .give t => do return .give (← t.eval call env)
  | .choose test yes no => do
    if ← truthOf (← test.eval call env) then Statement.runAll call env yes
    else Statement.runAll call env no
  | .each target source body => do
    let v ← source.eval call env
    let items ← itemsOf v
    whileReading v (items.fold .next fun x _ => do
      target.assign call env x
      match ← Statement.runAll call env body with
      | .leave => return (.next, false)
      | .give v => return (.give v, false)
      | _ => return (.next, true))
  | .define target code name parameters body => do
    let defaults ← Term.evalDefaults call env parameters
    target.assign call env (.function (← newSerial) code name parameters defaults body env)
    return .next

/-- Runs statements one after the other, until one of them does not go on. -/
def Statement.runAll (call : Caller) (env : Environment) : List Statement → Action Flow
  | [] => return .next
  | s :: rest => do
    match ← s.run call env with
    | .next => Statement.runAll call env rest
    | flow => return flow

end

/-! ## Calls -/

/-- Whether a parameter takes one value, by position or by name. -/
def Parameter.isSingle : Parameter → Bool
  | .required _ => true
  | .optional _ _ => true
  | _ => false

/-- The values of the parameters of a function that take one: the one `given` by position, the one
`named`, or the default. -/
def singleValues? (defaults : List (String × Value)) (given : List (String × Value))
    (named : Named) :
    List Parameter → Option (List (String × Value))
  | [] => some []
  | .required s :: rest => do
    let v ← (given.lookup s).or (named.lookup (utf8 s.toList))
    (singleValues? defaults given named rest).map ((s, v) :: ·)
  | .optional s _ :: rest => do
    let v ← ((given.lookup s).or (named.lookup (utf8 s.toList))).or (defaults.lookup s)
    (singleValues? defaults given named rest).map ((s, v) :: ·)
  | .gather _ :: more => singleValues? defaults given named more
  | .gatherNamed _ :: more => singleValues? defaults given named more

/-- The name of the parameter that takes what is left by position. -/
def Parameter.gatherer? : Parameter → Option String
  | .gather s => s
  | _ => none

/-- The name of the parameter that takes what is left by name. -/
def Parameter.namedGatherer? : Parameter → Option String
  | .gatherNamed s => some s
  | _ => none

/-- Gives the parameters of a function their values. No value may be left without a parameter, and
none may be given twice. -/
def bindParameters (parameters : List Parameter) (defaults : List (String × Value))
    (given : List Value) (named : Named) : Action Frame := do
  let positions := (parameters.takeWhile Parameter.isSingle).filterMap Parameter.name?
  let singles := (parameters.filter Parameter.isSingle).filterMap Parameter.name?
  let byPosition := positions.zip given
  let extra := given.drop positions.length
  let leftover := named.filter fun (s, _) => !(singles.any fun t => utf8 t.toList == s)
  let gatherer := parameters.findSome? Parameter.gatherer?
  let namedGatherer := parameters.findSome? Parameter.namedGatherer?
  let isClear := (named.map (·.1)).eraseDups.length == named.length &&
    byPosition.all fun (s, _) => (named.lookup (utf8 s.toList)).isNone
  if isClear && (extra.isEmpty || gatherer.isSome) &&
      (leftover.isEmpty || namedGatherer.isSome) then
    let single ← ofOption (singleValues? defaults byPosition named parameters)
    let positional := gatherer.toList.map fun s => (s, Value.tuple extra)
    let byName ← match namedGatherer with
      | some s => do
        let entries := leftover.map fun (k, v) => (Value.string (Bytes.ofList k), v)
        pure [(s, ← newDict (← ofOption (Dictionary.empty.insertAll? entries)))]
      | none => pure []
    return (single ++ positional ++ byName).map fun (s, v) => ((0, s), v)
  else ofOption none

/-- Calls a value, at most `depth` calls deep. `active` are the functions that are running; none of
them may be called again. -/
def callWithin : (depth : Nat) → (active : List Nat) → Caller
  | 0, _ => fun _ _ _ => ofOption none
  | depth + 1, active => fun f given named =>
    match f with
    | .builtin f => f.call (callWithin depth active) given named
    | .method _ self _ m => m.call self given named
    | .function _ code _ parameters defaults body frames =>
      if active.contains code then ofOption none
      else do
        let frame ← newFrame (← bindParameters parameters defaults given named)
        match ← Statement.runAll (callWithin depth (code :: active)) (frame :: frames) body with
        | .give v => return v
        | _ => return .none
    | _ => ofOption none

/-! ## Texts -/

/-- The value that a text leaves under a name. -/
def Statement.result (depth : Nat) (text : List Statement) (name : String) : Action Value := do
  let env := [← newFrame []]
  let _ ← Statement.runAll (callWithin depth []) env text
  readVariable env ⟨0, 0, name⟩

/-- What a value is to the assembler. -/
def Value.execution : Value → Execution
  | .int v => .integer v
  | .float x => .float x
  | _ => .other

/-- What comes of an action that starts with nothing in memory. -/
def Action.execution (action : Action Value) : Execution :=
  match action Store.empty with
  | .ok (v, _) => v.execution
  | .error .failure => .failure
  | .error (.crash message) => .crash message

/-- The computation that a text describes. Its free names have the values that `free` gives them. -/
def action? (free : String → Option Int) (text : Text) : Option (Action Value) := do
  let tokens ← Token.ofText? text.scalars
  let text ← Statement.closeText? free (← Statement.ofTokens? tokens)
  some (Statement.result (3 * tokens.length + 10) text resultName)

/-- Runs a text. -/
def execute (free : String → Option Int) (text : Text) : Execution :=
  match action? free text with
  | some action => Action.execution action
  | none => .failure

instance interpreter : Interpreter := ⟨execute⟩

end LittleComputer.Expression
