import LittleComputer.Layout.Walk

/-!
# Walks that meet no fault

A walk is taken apart by what its first step does. `Walk.Runs` is the shape of a walk without a
fault, step by step and without the visits kept in reverse; the facts of both passes go by induction
on it.
-/

namespace LittleComputer

/-- The statements up to the first `.END` and the `.END` itself. -/
def Statement.upToEnd : List Statement → List Statement
  | [] => []
  | s :: rest => if s.isEnd then [s] else s :: upToEnd rest

theorem Statement.upToEnd_prefix (statements : List Statement) :
    upToEnd statements <+: statements := by
  induction statements with
  | nil => exact List.prefix_refl []
  | cons s rest ih =>
    unfold upToEnd
    split
    · exact List.cons_prefix_cons.mpr ⟨rfl, List.nil_prefix⟩
    · exact List.cons_prefix_cons.mpr ⟨rfl, ih⟩

namespace Walk

variable {σ : Type} {step : σ → Statement → σ × Option Fault}

theorem goOn_seen (state : σ) (statements : List Statement) (seen : List (σ × Statement)) :
    goOn step state statements seen =
      { goOn step state statements [] with
        visits := seen.reverse ++ (goOn step state statements []).visits } := by
  induction statements generalizing state seen with
  | nil => simp [goOn]
  | cons s rest ih =>
    unfold goOn
    split
    · simp
    · rename_i next hstep
      by_cases he : s.isEnd = true
      · simp [he]
      · simp only [he, Bool.false_eq_true, if_false]
        rw [ih next ((state, s) :: seen), ih next [(state, s)]]
        simp

theorem through_fault {state next : σ} {s : Statement} {fault : Fault} (rest : List Statement)
    (h : step state s = (next, some fault)) :
    through step state (s :: rest) = ⟨[(state, s)], next, some (.located s.line fault)⟩ := by
  simp [through, goOn, h]

theorem through_end {state next : σ} {s : Statement} (rest : List Statement)
    (h : step state s = (next, none)) (he : s.isEnd = true) :
    through step state (s :: rest) = ⟨[(state, s)], next, none⟩ := by
  simp [through, goOn, h, he]

theorem through_next {state next : σ} {s : Statement} (rest : List Statement)
    (h : step state s = (next, none)) (he : s.isEnd = false) :
    through step state (s :: rest) =
      { through step next rest with
        visits := (state, s) :: (through step next rest).visits } := by
  simp only [through, goOn, h, he, Bool.false_eq_true, if_false]
  rw [goOn_seen next rest [(state, s)]]
  rfl

/-- A walk that fails does so in a step, at the line of the statement that the step is about. -/
theorem fault_of_error {state : σ} {statements : List Statement} {error : Error}
    (h : (through step state statements).error = some error) :
    ∃ (reached next : σ) (s : Statement) (fault : Fault), s ∈ statements ∧
      step reached s = (next, some fault) ∧ error = .located s.line fault := by
  induction statements generalizing state with
  | nil => cases h
  | cons s rest ih =>
    rcases hstep : step state s with ⟨next, _ | fault⟩
    · cases he : s.isEnd with
      | true =>
        rw [through_end rest hstep he] at h
        cases h
      | false =>
        rw [through_next rest hstep he] at h
        obtain ⟨reached, next', s', fault, hmem, hfault⟩ := ih h
        exact ⟨reached, next', s', fault, List.mem_cons_of_mem s hmem, hfault⟩
    · rw [through_fault rest hstep] at h
      cases h
      exact ⟨state, next, s, fault, List.mem_cons_self, hstep, rfl⟩

/-- What every step without a fault keeps holds whenever a statement is reached, also in a walk that
fails in the end. -/
theorem keeps_at_visits {p : σ → Prop} (hstep : ∀ x s y, step x s = (y, none) → p x → p y)
    {state : σ}
    (hp : p state) {statements : List Statement} {visit : σ × Statement}
    (hmem : visit ∈ (through step state statements).visits) : p visit.1 := by
  induction statements generalizing state with
  | nil => cases hmem
  | cons s rest ih =>
    rcases hs : step state s with ⟨next, _ | fault⟩
    · cases he : s.isEnd with
      | true =>
        rw [through_end rest hs he] at hmem
        cases List.mem_singleton.mp hmem
        exact hp
      | false =>
        rw [through_next rest hs he] at hmem
        rcases List.mem_cons.mp hmem with rfl | hmem
        · exact hp
        · exact ih (hstep state s next hs hp) hmem
    · rw [through_fault rest hs] at hmem
      cases List.mem_singleton.mp hmem
      exact hp

/-- A walk from a state over statements, with its visits and its last state, that meets no fault. -/
inductive Runs (step : σ → Statement → σ × Option Fault) :
    σ → List Statement → List (σ × Statement) → σ → Prop
  | nil (state : σ) : Runs step state [] [] state
  | stop {state next : σ} {s : Statement} (rest : List Statement)
      (hstep : step state s = (next, none)) (hend : s.isEnd = true) :
      Runs step state (s :: rest) [(state, s)] next
  | next {state next final : σ} {s : Statement} {rest : List Statement}
      {visits : List (σ × Statement)} (hstep : step state s = (next, none))
      (hend : s.isEnd = false) (hrest : Runs step next rest visits final) :
      Runs step state (s :: rest) ((state, s) :: visits) final

theorem runs_through {state : σ} {statements : List Statement}
    (h : (through step state statements).error = none) :
    Runs step state statements (through step state statements).visits
      (through step state statements).final := by
  induction statements generalizing state with
  | nil => exact .nil state
  | cons s rest ih =>
    rcases hstep : step state s with ⟨next, _ | fault⟩
    · cases he : s.isEnd with
      | true =>
        rw [through_end rest hstep he]
        exact .stop rest hstep he
      | false =>
        rw [through_next rest hstep he] at h ⊢
        exact .next hstep he (ih h)
    · rw [through_fault rest hstep] at h
      cases h

namespace Runs

variable {state final : σ} {statements : List Statement} {visits : List (σ × Statement)}

/-- Nothing up to the first `.END` is left out, and nothing behind it is reached. -/
theorem visited (h : Runs step state statements visits final) :
    visits.map (·.2) = Statement.upToEnd statements := by
  induction h with
  | nil state => rfl
  | stop rest hstep hend => simp [Statement.upToEnd, hend]
  | next hstep hend hrest ih => simp [Statement.upToEnd, hend, ih]

/-- Every visit was followed by a step without a fault. -/
theorem step_of_mem (h : Runs step state statements visits final) {visit : σ × Statement}
    (hmem : visit ∈ visits) : ∃ next, step visit.1 visit.2 = (next, none) := by
  induction h with
  | nil state => cases hmem
  | stop rest hstep hend =>
    cases List.mem_singleton.mp hmem
    exact ⟨_, hstep⟩
  | next hstep hend hrest ih =>
    rcases List.mem_cons.mp hmem with rfl | hmem
    · exact ⟨_, hstep⟩
    · exact ih hmem

/-- What every step keeps holds at the end. -/
theorem keeps {p : σ → Prop} (h : Runs step state statements visits final)
    (hstep : ∀ x s y, step x s = (y, none) → p x → p y) (hp : p state) : p final := by
  induction h with
  | nil state => exact hp
  | stop rest hs hend => exact hstep _ _ _ hs hp
  | next hs hend hrest ih => exact ih (hstep _ _ _ hs hp)

/-- What every step keeps holds whenever a statement is reached. -/
theorem keeps_at {p : σ → Prop} (h : Runs step state statements visits final)
    (hstep : ∀ x s y, step x s = (y, none) → p x → p y) (hp : p state)
    {visit : σ × Statement}
    (hmem : visit ∈ visits) : p visit.1 := by
  induction h with
  | nil state => cases hmem
  | stop rest hs hend =>
    cases List.mem_singleton.mp hmem
    exact hp
  | next hs hend hrest ih =>
    rcases List.mem_cons.mp hmem with rfl | hmem
    · exact hp
    · exact ih (hstep _ _ _ hs hp) hmem

end Runs

/-- Steps without a fault, one behind the other, as far as they go. Unlike `Runs` this says nothing
of the statements that are left, so that a fact about visits has two cases only. -/
inductive Steps (step : σ → Statement → σ × Option Fault) :
    σ → List (σ × Statement) → σ → Prop
  | nil (state : σ) : Steps step state [] state
  | cons {state next final : σ} {s : Statement} {visits : List (σ × Statement)}
      (hstep : step state s = (next, none)) (hrest : Steps step next visits final) :
      Steps step state ((state, s) :: visits) final

theorem Runs.steps {state final : σ} {statements : List Statement}
    {visits : List (σ × Statement)}
    (h : Runs step state statements visits final) : Steps step state visits final := by
  induction h with
  | nil state => exact .nil state
  | stop rest hstep hend => exact .cons hstep (.nil _)
  | next hstep hend hrest ih => exact .cons hstep ih

end Walk

end LittleComputer
