import LittleComputer.Layout.Size

/-!
# Walks over statements

Both passes walk over the statements in order, stop behind the first `.END` and stop at the first
fault, which then is located at the line of its statement. A `Walk` remembers the state in which
each statement was reached.
-/

namespace LittleComputer

structure Walk (σ : Type) where
  /-- The statements reached, each with the state on reaching it. -/
  visits : List (σ × Statement)
  /-- The state at the end. -/
  final : σ
  error : Option Error

namespace Walk

variable {σ : Type}

/-- Goes on in a state; `seen` holds the visits so far, last first. A step gives the next state, and
the fault that ends the walk if there is one. -/
def goOn (step : σ → Statement → σ × Option Fault) :
    σ → List Statement → (seen : List (σ × Statement)) → Walk σ
  | state, [], seen => ⟨seen.reverse, state, none⟩
  | state, s :: rest, seen =>
    match step state s with
    | (next, some fault) => ⟨((state, s) :: seen).reverse, next, some (.located s.line fault)⟩
    | (next, none) =>
      if s.isEnd then ⟨((state, s) :: seen).reverse, next, none⟩
      else goOn step next rest ((state, s) :: seen)

def through (step : σ → Statement → σ × Option Fault) (start : σ)
    (statements : List Statement) :
    Walk σ :=
  goOn step start statements []

/-- One line for each statement reached: the pass, the address, the line number and the line. -/
def log (pass : String) (locator : σ → Locator) (w : Walk σ) : Text :=
  w.visits.flatMap fun (state, s) =>
    (pass : Text) ++ .char ' ' :: (hexAtLeastFour (locator state).address).map .char ++
      .char ' ' :: (decimal s.line.number).map .char ++ (": " : Text) ++ s.line.text ++
        ("\n" : Text)

end Walk

/-- Applies `.ORIG`; other statements leave the locator where it is. -/
def Scope.relocate [Interpreter] (scope : Scope) (loc : Locator) (s : Statement) :
    Except Fault Locator :=
  match s.operation with
  | .keyword .orig => do loc.setOrigin (← scope.origin s)
  | _ => .ok loc

end LittleComputer
