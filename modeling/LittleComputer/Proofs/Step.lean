import LittleComputer.Assembler
import LittleComputer.Proofs.Outcome
import LittleComputer.Proofs.Walk

/-!
# Steps of the two passes

Each pass handles a statement in two halves. The first half is the same for both: it applies `.ORIG`
and takes the address of a label. `Scope.arrive` is that half on the locator alone. The inversions
below say all that a step without a fault does, so that no proof about a pass has to open its
definition again.
-/

namespace LittleComputer

open Outcome

namespace Locator

theorem setOrigin_eq_ok {loc loc' : Locator} {origin : UInt16} :
    loc.setOrigin origin = .ok loc' ↔ origin.toNat % wordSize = 0 ∧
      (loc.placed = true ∧ origin.toNat = loc.address ∧ loc' = loc ∨
        loc.placed = false ∧ loc' = ⟨origin, origin.toNat, false⟩) := by
  unfold setOrigin
  by_cases heven : origin.toNat % wordSize = 0
  · rw [if_neg (not_not_intro heven)]
    cases hp : loc.placed with
    | false => simp [heven, eq_comm]
    | true =>
      simp only [heven, if_true, true_and, Bool.true_eq_false, false_and, or_false]
      by_cases ha : origin.toNat = loc.address
      · simp [ha, eq_comm]
      · simp [ha]
  · simp [heven]

theorem here_eq_ok {loc loc' : Locator} {a : UInt16} :
    loc.here = .ok (a, loc') ↔ loc.address < addressLimit ∧ a = UInt16.ofNat loc.address ∧
      loc' = { loc with placed := true } := by
  unfold here
  by_cases ha : loc.address < addressLimit
  · simp [ha, eq_comm]
  · simp [ha]

theorem advance_eq_ok {loc loc' : Locator} {size : Nat} :
    loc.advance size = .ok loc' ↔ size = 0 ∧ loc' = loc ∨
      size ≠ 0 ∧ loc.address + size ≤ addressLimit ∧
        loc' = { loc with address := loc.address + size, placed := true } := by
  unfold advance
  by_cases hs : size = 0
  · simp [hs, eq_comm]
  · by_cases ha : loc.address + size ≤ addressLimit
    · simp [hs, ha, eq_comm]
    · simp [hs, ha]

end Locator

variable [Interpreter]

/-- Where the words of a statement start: behind its `.ORIG`, with its label placed. -/
def Scope.arrive (scope : Scope) (loc : Locator) (s : Statement) : Except Fault Locator := do
  let loc ← scope.relocate loc s
  match s.label with
  | none => .ok loc
  | some _ => Prod.snd <$> loc.here

namespace Scope

variable {scope : Scope} {loc loc' : Locator} {s : Statement}

theorem relocate_eq_ok : scope.relocate loc s = .ok loc' ↔
    s.operation ≠ .keyword .orig ∧ loc' = loc ∨
      s.operation = .keyword .orig ∧ ∃ o, scope.origin s = .ok o ∧
        loc.setOrigin o = .ok loc' := by
  unfold relocate
  split
  · rename_i hop
    simp only [hop, ne_eq, not_true, false_and, true_and, false_or]
    exact bind_eq_ok
  · rename_i hop
    have hne : s.operation ≠ .keyword .orig := hop
    simp only [hne, ne_eq, not_false_eq_true, true_and, false_and, or_false, Except.ok.injEq,
      eq_comm]

theorem arrive_eq_ok : scope.arrive loc s = .ok loc' ↔ ∃ mid, scope.relocate loc s = .ok mid ∧
    (s.label = none ∧ loc' = mid ∨
      s.label ≠ none ∧ mid.address < addressLimit ∧ loc' = { mid with placed := true }) := by
  unfold arrive
  rw [bind_eq_ok]
  refine exists_congr fun mid => and_congr_right fun _ => ?_
  cases s.label with
  | none => simp [eq_comm]
  | some name =>
    simp only [reduceCtorEq, false_and, false_or, ne_eq, not_false_eq_true, true_and]
    constructor
    · intro h
      obtain ⟨⟨a, _⟩, hhere, rfl⟩ := map_eq_ok.mp h
      obtain ⟨ha, -, rfl⟩ := Locator.here_eq_ok.mp hhere
      exact ⟨ha, rfl⟩
    · rintro ⟨ha, rfl⟩
      exact map_eq_ok.mpr ⟨_, Locator.here_eq_ok.mpr ⟨ha, rfl, rfl⟩, rfl⟩

/-- A label is placed below the limit. -/
theorem arrive_label (hlabel : s.label ≠ none) (h : scope.arrive loc s = .ok loc') :
    loc'.address < addressLimit := by
  obtain ⟨mid, -, ⟨hnone, -⟩ | ⟨-, ha, rfl⟩⟩ := arrive_eq_ok.mp h
  · exact absurd hnone hlabel
  · exact ha

/-- Only `.ORIG` moves the address on arrival. -/
theorem arrive_address (hop : s.operation ≠ .keyword .orig) (h : scope.arrive loc s = .ok loc') :
    loc'.address = loc.address := by
  obtain ⟨mid, hmid, hlabel⟩ := arrive_eq_ok.mp h
  obtain ⟨-, rfl⟩ | ⟨horig, -⟩ := relocate_eq_ok.mp hmid
  · obtain ⟨-, rfl⟩ | ⟨-, -, rfl⟩ := hlabel
    · rfl
    · rfl
  · exact absurd horig hop

end Scope

namespace Survey

variable {v m next : Survey} {s : Statement}

/-- The symbols behind the label of a statement that arrived at an address. -/
def Defines (s : Statement) (address : Nat) (t u : SymbolTable) : Prop :=
  match s.label with
  | none => u = t
  | some name => t.define name (UInt16.ofNat address) = .ok u

theorem arrive_of_mark (h : v.mark s = .ok m) :
    (v.scope s).arrive v.locator s = .ok m.locator ∧
      Defines s m.locator.address v.symbols m.symbols := by
  unfold Defines
  obtain ⟨mid, hmid, h⟩ := bind_eq_ok.mp h
  rw [Scope.arrive_eq_ok]
  cases hlabel : s.label with
  | none =>
    rw [hlabel] at h
    cases h
    exact ⟨⟨mid, hmid, .inl ⟨rfl, rfl⟩⟩, rfl⟩
  | some name =>
    rw [hlabel] at h
    obtain ⟨⟨a, loc⟩, hhere, h⟩ := bind_eq_ok.mp h
    obtain ⟨u, hu, h⟩ := bind_eq_ok.mp h
    cases h
    obtain ⟨ha, rfl, rfl⟩ := Locator.here_eq_ok.mp hhere
    exact ⟨⟨mid, hmid, .inr ⟨nofun, ha, rfl⟩⟩, hu⟩

theorem pass_eq_ok : v.pass s = .ok next ↔ ∃ size, (v.scope s).size s = .ok size ∧
    v.locator.advance size = .ok next.locator ∧ next.symbols = v.symbols := by
  unfold pass
  rw [bind_eq_ok]
  refine exists_congr fun size => and_congr_right fun _ => ?_
  rw [bind_eq_ok]
  constructor
  · rintro ⟨loc, hloc, h⟩
    cases h
    exact ⟨hloc, rfl⟩
  · rintro ⟨hloc, hsym⟩
    refine ⟨next.locator, hloc, ?_⟩
    rw [← hsym]

theorem step_eq_none : v.step s = (next, none) ↔
    ∃ marked, v.mark s = .ok marked ∧ marked.pass s = .ok next := by
  unfold step
  cases v.mark s with
  | error fault => simp
  | ok marked =>
    cases hpass : marked.pass s with
    | error fault => simp [hpass]
    | ok next' => simp [hpass]

/-- A step changes the table by its label only. -/
theorem defines_of_step (h : v.step s = (next, none)) :
    ∃ m, v.mark s = .ok m ∧ Defines s m.locator.address v.symbols next.symbols := by
  obtain ⟨m, hmark, hpass⟩ := step_eq_none.mp h
  obtain ⟨size, -, -, hsym⟩ := pass_eq_ok.mp hpass
  rw [hsym]
  exact ⟨m, hmark, (arrive_of_mark hmark).2⟩

end Survey

namespace Encoding

variable {e m next : Encoding} {symbols : SymbolTable} {s : Statement}

theorem mark_eq_ok : e.mark symbols s = .ok m ↔
    (e.scope symbols s).arrive e.locator s = .ok m.locator ∧ m.cells = e.cells := by
  unfold mark Scope.arrive
  rw [bind_eq_ok, bind_eq_ok]
  obtain ⟨mloc, mcells⟩ := m
  constructor
  · rintro ⟨mid, hmid, h⟩
    cases hlabel : s.label with
    | none =>
      rw [hlabel] at h
      cases h
      exact ⟨⟨mloc, hmid, rfl⟩, rfl⟩
    | some name =>
      rw [hlabel] at h
      obtain ⟨⟨a, loc⟩, hhere, h⟩ := bind_eq_ok.mp h
      cases h
      exact ⟨⟨mid, hmid, map_eq_ok.mpr ⟨_, hhere, rfl⟩⟩, rfl⟩
  · rintro ⟨⟨mid, hmid, h⟩, rfl⟩
    refine ⟨mid, hmid, ?_⟩
    cases hlabel : s.label with
    | none =>
      rw [hlabel] at h
      cases h
      rfl
    | some name =>
      rw [hlabel] at h
      obtain ⟨⟨a, loc⟩, hhere, rfl⟩ := map_eq_ok.mp h
      exact bind_eq_ok.mpr ⟨_, hhere, rfl⟩

theorem emit_eq_ok : e.emit symbols s = .ok next ↔ ∃ words,
    (e.scope symbols s).words s = .ok words ∧
    e.locator.advance (wordSize * words.length) = .ok next.locator ∧
    next.cells = (Cell.place e.locator.address s.line words).reverse ++ e.cells := by
  unfold emit
  rw [bind_eq_ok]
  refine exists_congr fun words => and_congr_right fun _ => ?_
  rw [bind_eq_ok]
  obtain ⟨nloc, ncells⟩ := next
  constructor
  · rintro ⟨loc, hloc, h⟩
    cases h
    exact ⟨hloc, rfl⟩
  · rintro ⟨hloc, rfl⟩
    exact ⟨nloc, hloc, rfl⟩

theorem step_eq_none : step symbols e s = (next, none) ↔
    ∃ marked, e.mark symbols s = .ok marked ∧ marked.emit symbols s = .ok next := by
  unfold step
  rw [← bind_eq_ok]
  split
  · rename_i fault h
    simp [h]
  · rename_i next' h
    simp [h]

end Encoding

/-! ## Walks of an assembler -/

namespace Assembler

variable {a : Assembler} {statements : List Statement} {symbols : SymbolTable}

/-- A survey that went well is a run from the predefined symbols to the table it gives. -/
theorem runs_of_survey (h : (a.survey statements).result = (symbols, none)) :
    ∃ predefined, SymbolTable.empty.defineAll a.predefined.toList = .ok predefined ∧
      Walk.Runs Survey.step (.start predefined) statements
        (Survey.walk predefined statements).visits
        (Survey.walk predefined statements).final ∧
      (Survey.walk predefined statements).final.symbols = symbols := by
  unfold survey at h
  split at h
  · cases h
  · rename_i predefined hdef
    obtain ⟨hsym, herror⟩ := Prod.mk.inj h
    exact ⟨predefined, hdef, Walk.runs_through herror, hsym⟩

theorem survey_eq (h : (a.survey statements).result.2 = none) :
    (a.survey statements).result = ((a.survey statements).result.1, none) := by
  rw [← h]

theorem no_error_of_encode {prog : Program} (h : (a.encode statements symbols).result = .ok prog) :
    (Encoding.walk symbols statements).error = none := by
  unfold encode Encoding.program at h
  simp only at h
  split at h
  · cases h
  · assumption

/-- An encoding that went well is a run, and its program is what the run ends with. -/
theorem runs_of_encode {prog : Program} (h : (a.encode statements symbols).result = .ok prog) :
    Walk.Runs (Encoding.step symbols) .start statements (Encoding.walk symbols statements).visits
        (Encoding.walk symbols statements).final ∧
      prog.origin = (Encoding.walk symbols statements).final.locator.origin ∧
      prog.cells = (Encoding.walk symbols statements).final.cells.reverse ∧
      prog.symbols = symbols := by
  have herror := no_error_of_encode h
  refine ⟨Walk.runs_through herror, ?_⟩
  unfold encode Encoding.program at h
  simp only [herror, Except.ok.injEq] at h
  subst h
  exact ⟨rfl, rfl, rfl⟩

theorem error_of_encode {error : Error} (h : (a.encode statements symbols).result = .error error) :
    (Encoding.walk symbols statements).error = some error := by
  unfold encode Encoding.program at h
  simp only at h
  split at h
  · rename_i hw
    cases h
    exact hw
  · cases h

end Assembler

end LittleComputer
