import LittleComputer.Fault

/-!
# Outcomes of checks

A check gives a value or a fault, and most functions chain checks. The lemmas here take such a chain
apart: once for the values of a chain that went through, once for the faults of one that did not.
-/

namespace LittleComputer.Outcome

variable {ε α β : Type}

/-- A chain goes through when each of its checks does. -/
theorem bind_eq_ok {x : Except ε α} {next : α → Except ε β} {b : β} :
    x >>= next = .ok b ↔ ∃ a, x = .ok a ∧ next a = .ok b := by
  rcases x with e | a
  · exact ⟨nofun, nofun⟩
  · exact ⟨fun h => ⟨a, rfl, h⟩, fun ⟨_, ha, h⟩ => by cases ha; exact h⟩

theorem map_eq_ok {x : Except ε α} {make : α → β} {b : β} :
    make <$> x = .ok b ↔ ∃ a, x = .ok a ∧ make a = b := by
  rcases x with e | a
  · exact ⟨nofun, nofun⟩
  · exact ⟨fun h => ⟨a, rfl, by cases h; rfl⟩, fun ⟨_, ha, h⟩ => by
      cases ha; cases h; rfl⟩

theorem pure_eq_ok {a b : α} : (pure a : Except ε α) = .ok b ↔ a = b := by
  simp [pure, Except.pure]

theorem eq_ok_of_toOption {x : Except ε α} {a : α} (h : x.toOption = some a) : x = .ok a := by
  rcases x with e | b
  · cases h
  · exact congrArg Except.ok (Option.some.inj h)

/-- A closed check can be run to see what its value is like. -/
theorem exists_ok_of_any {x : Except ε α} {p : α → Prop} [DecidablePred p]
    (h : x.toOption.any (fun a => decide (p a)) = true) : ∃ a, x = .ok a ∧ p a := by
  rcases x with e | a
  · cases h
  · exact ⟨a, rfl, of_decide_eq_true h⟩

theorem exists_error_of_run {x : Except ε α} {p : ε → Prop} [DecidablePred p]
    (h : (match x with | .ok _ => false | .error e => decide (p e)) = true) :
    ∃ e, x = .error e ∧ p e := by
  rcases x with e | a
  · exact ⟨e, rfl, of_decide_eq_true h⟩
  · cases h

/-- Whatever goes wrong is one of the faults `p`. -/
def FailsOnlyWith (p : ε → Prop) (x : Except ε α) : Prop := ∀ e, x = .error e → p e

namespace FailsOnlyWith

variable {p : ε → Prop}

theorem ok (a : α) : FailsOnlyWith p (.ok a) := nofun

theorem pure (a : α) : FailsOnlyWith p (Pure.pure a : Except ε α) := nofun

theorem error {e : ε} (h : p e) : FailsOnlyWith p (.error e : Except ε α) := by
  intro e' he
  cases he
  exact h

theorem bind {x : Except ε α} {next : α → Except ε β} (hx : FailsOnlyWith p x)
    (hnext : ∀ a, FailsOnlyWith p (next a)) : FailsOnlyWith p (x >>= next) := by
  intro e he
  cases x with
  | error e' =>
    have heq : e' = e := by simpa [Bind.bind, Except.bind] using he
    exact hx e (by rw [heq])
  | ok a => exact hnext a e he

theorem map {x : Except ε α} (hx : FailsOnlyWith p x) (make : α → β) :
    FailsOnlyWith p (make <$> x) := by
  intro e he
  cases x with
  | error e' =>
    have heq : e' = e := by simpa [Functor.map, Except.map] using he
    exact hx e (by rw [heq])
  | ok a => cases he

theorem ite {q : Prop} [Decidable q] {x y : Except ε α} (hx : FailsOnlyWith p x)
    (hy : FailsOnlyWith p y) : FailsOnlyWith p (if q then x else y) := by
  split
  · exact hx
  · exact hy

end FailsOnlyWith

end LittleComputer.Outcome
