import LittleComputer.Proofs.Expression.Meanings
import LittleComputer.Proofs.Label
import LittleComputer.Proofs.Operand
import LittleComputer.Proofs.Step
import LittleComputer.Proofs.Symbols
import LittleComputer.Proofs.UpperCase

/-!
# The second pass goes the way of the first

Both passes read the operands of `.ORIG` and `.BLKW`, the first with the symbols found so far and
the second with all of them. More symbols change no value that was there, unless one of them hides
`PC` or `LINENO`. So the second pass reaches every statement with the locator of the first pass, and
what can still go wrong in it is an operand. Without the condition on labels the passes can drift
apart.
-/

namespace LittleComputer

open Outcome

/-- The names that an expression can use although they are no symbols. -/
def predeclaredNames : List String := ["PC", "LINENO"]

/-- Every other name is a symbol or has no meaning. -/
theorem Scope.name?_of_not_predeclared {scope : Scope} {name : String}
    (h : name ∉ predeclaredNames) :
    scope.name? name = scope.symbols.addresses[name]?.map fun a => (a.toNat : Int) := by
  obtain ⟨hpc, hline⟩ : name ≠ "PC" ∧ name ≠ "LINENO" := by
    simpa [predeclaredNames] using h
  unfold name?
  rw [if_neg hpc, if_neg hline]
  cases scope.symbols.addresses[name]? with
  | none => rfl
  | some a => rfl

/-- An upper-case form is no small letter: it would have another upper-case form. -/
theorem isSmall_upperChar (c : Char) : Expression.isSmall (upperChar c) = false := by
  have hchanges : ∀ d : Char, d.toNat < 128 → Expression.isSmall d = true →
      upperChar d ≠ d :=
    ascii_of_numbers (p := fun d => Expression.isSmall d = true → upperChar d ≠ d) (by decide)
  rw [Bool.eq_false_iff]
  intro hsmall
  have hascii : (upperChar c).toNat ≤ 122 :=
    UInt32.le_iff_toNat_le.mp (of_decide_eq_true (Bool.and_eq_true_iff.mp hsmall).2)
  exact hchanges _ (by omega) hsmall (upperChar_upperChar c)

theorem Text.no_small_upper (t : Text) : t.upper.toList.any Expression.isSmall = false := by
  rw [Text.toList_upper, List.any_map, List.any_eq_false]
  intro c _
  rw [Function.comp_apply, isSmall_upperChar]
  nofun

namespace SymbolTable

/-- The second table has more symbols than the first, but no new one hides a predeclared name, and
none holds a small letter. -/
structure GrowsTo (t u : SymbolTable) : Prop where
  within : t.Within u
  predeclared : ∀ key ∈ predeclaredNames, u.addresses[key]? = t.addresses[key]?
  upper : ∀ key : String, t.addresses[key]? = none → u.addresses[key]? ≠ none →
    key.toList.any Expression.isSmall = false

theorem GrowsTo.refl (t : SymbolTable) : t.GrowsTo t :=
  ⟨.refl t, fun _ _ => rfl, fun _ hnone hsome => absurd hnone hsome⟩

theorem GrowsTo.trans {t u w : SymbolTable} (h : t.GrowsTo u) (h' : u.GrowsTo w) : t.GrowsTo w where
  within := h.within.trans h'.within
  predeclared key hkey := (h'.predeclared key hkey).trans (h.predeclared key hkey)
  upper key hnone hsome := by
    by_cases hmid : u.addresses[key]? = none
    · exact h'.upper key hmid hsome
    · exact h.upper key hnone hmid

theorem growsTo_of_define {t u : SymbolTable} {name : Text} {a : UInt16}
    (h : t.define name a = .ok u) (hname : name.upper ∉ predeclaredNames) : t.GrowsTo u where
  within := within_of_define h
  predeclared key hkey := by
    refine addresses_of_define_ne h ?_
    rintro rfl
    exact hname hkey
  upper key hnone hsome := by
    by_cases hkey : name.upper = key
    · rw [← hkey]
      exact Text.no_small_upper name
    · rw [addresses_of_define_ne h hkey] at hsome
      exact absurd hnone hsome

/-- Where a table has grown, an expression keeps its value. -/
theorem GrowsTo.below {t u : SymbolTable} (h : t.GrowsTo u) (address line : Int) :
    Scope.Below ⟨t, address, line⟩ ⟨u, address, line⟩ := by
  have hpredeclared : ∀ name, t.addresses[name]? = none → name ∈ predeclaredNames →
      u.addresses[name]? = none := fun name ht hmem => (h.predeclared name hmem).trans ht
  refine ⟨fun name v hv => ?_, fun name hnone hsome => ?_⟩
  · cases ht : t.addresses[name]? with
    | some a =>
      rw [Scope.name?, h.within name a ht]
      rw [Scope.name?, ht] at hv
      exact hv
    | none =>
      by_cases hmem : name ∈ predeclaredNames
      · rw [Scope.name?, hpredeclared name ht hmem]
        rw [Scope.name?, ht] at hv
        exact hv
      · rw [Scope.name?_of_not_predeclared hmem, ht] at hv
        cases hv
  · cases ht : t.addresses[name]? with
    | some a =>
      rw [Scope.name?, ht] at hnone
      cases hnone
    | none =>
      by_cases hmem : name ∈ predeclaredNames
      · rw [Scope.name?, hpredeclared name ht hmem] at hsome
        rw [Scope.name?, ht] at hnone
        exact absurd hnone hsome
      · rw [Scope.name?_of_not_predeclared hmem] at hsome
        exact h.upper name ht fun hu => hsome (by rw [hu]; rfl)

end SymbolTable

theorem Scope.arrive_of_below [Interpreter] [Interpreter.Steady] {s t : Scope} (h : s.Below t)
    {loc loc' : Locator} {st : Statement}
    (hloc : s.arrive loc st = .ok loc') : t.arrive loc st = .ok loc' := by
  obtain ⟨mid, hmid, hlabel⟩ := arrive_eq_ok.mp hloc
  exact arrive_eq_ok.mpr ⟨mid, relocate_of_below h hmid, hlabel⟩

/-- The locators of a walk on reaching its statements. -/
def Walk.trace {σ : Type} (locator : σ → Locator) (w : Walk σ) : List (Locator × Statement) :=
  w.visits.map fun visit => (locator visit.1, visit.2)

/-- No label of the statement hides a predeclared name. -/
def Statement.HidesNothing (s : Statement) : Prop :=
  ∀ name, s.label = some name → name.upper ∉ predeclaredNames

namespace Survey

variable [Interpreter]

variable {v v' final : Survey} {s : Statement} {statements : List Statement}
  {visits : List (Survey × Statement)}

theorem growsTo_of_step (hs : s.HidesNothing) (h : v.step s = (v', none)) :
    v.symbols.GrowsTo v'.symbols := by
  obtain ⟨m, -, hdef⟩ := defines_of_step h
  unfold Defines at hdef
  cases hlabel : s.label with
  | none =>
    rw [hlabel] at hdef
    rw [hdef]
    exact .refl _
  | some name =>
    rw [hlabel] at hdef
    exact SymbolTable.growsTo_of_define hdef (hs name hlabel)

theorem growsTo_of_runs (h : Walk.Runs step v statements visits final)
    (hs : ∀ s ∈ statements, s.HidesNothing) : v.symbols.GrowsTo final.symbols := by
  induction h with
  | nil v => exact .refl _
  | stop rest hstep hend => exact growsTo_of_step (hs _ List.mem_cons_self) hstep
  | next hstep hend hrest ih =>
    have hfirst := growsTo_of_step (hs _ List.mem_cons_self) hstep
    exact hfirst.trans (ih fun s hmem => hs s (List.mem_cons_of_mem _ hmem))

end Survey

namespace Encoding

variable [Interpreter]

variable {v v' : Survey} {e : Encoding} {symbols : SymbolTable} {s : Statement}

theorem step_of_words_error {m : Encoding} {fault : Fault} (hmark : e.mark symbols s = .ok m)
    (hwords : (m.scope symbols s).words s = .error fault) :
    step symbols e s = (e, some fault) := by
  have hemit : m.emit symbols s = .error fault := by
    unfold emit
    rw [hwords]
    rfl
  have hchain : (e.mark symbols s >>= fun marked => marked.emit symbols s) = .error fault := by
    rw [hmark]
    exact hemit
  unfold step
  rw [hchain]

/-- One step: where the first pass gets over a statement, the second one ends at the same place or
fails because of an operand. -/
theorem step_agrees [Interpreter.Steady] (hstep : v.step s = (v', none))
    (hloc : e.locator = v.locator)
    (hv : v.symbols.GrowsTo symbols) (hv' : v'.symbols.GrowsTo symbols) :
    (∃ e', step symbols e s = (e', none) ∧ e'.locator = v'.locator) ∨
      ∃ fault, step symbols e s = (e, some fault) ∧ fault.concernsOperands = true := by
  obtain ⟨m, hmark, hpass⟩ := Survey.step_eq_none.mp hstep
  obtain ⟨harrive, -⟩ := Survey.arrive_of_mark hmark
  obtain ⟨size, hsize, hadvance, hsym⟩ := Survey.pass_eq_ok.mp hpass
  rw [hsym] at hv'
  have hmark' : e.mark symbols s = .ok ⟨m.locator, e.cells⟩ := by
    refine mark_eq_ok.mpr ⟨?_, rfl⟩
    unfold Encoding.scope
    rw [hloc]
    exact Scope.arrive_of_below (hv.below _ _) harrive
  cases hwords : (Encoding.scope ⟨m.locator, e.cells⟩ symbols s).words s with
  | error fault =>
    exact .inr ⟨fault, step_of_words_error hmark' hwords, Scope.words_reads _ s fault hwords⟩
  | ok words =>
    have hsame : size = wordSize * words.length := by
      have h := Scope.size_of_below (hv'.below _ _) hsize
      exact Except.ok.inj (h.symm.trans (Scope.size_of_words hwords))
    refine .inl ⟨⟨v'.locator, _⟩,
      step_eq_none.mpr ⟨_, hmark', emit_eq_ok.mpr ⟨words, hwords, ?_, rfl⟩⟩, rfl⟩
    rw [← hsame]
    exact hadvance

/-- How the second pass keeps to a way, as far as it comes: it leaves it nowhere, it comes to the
goal if it meets no fault, and a fault it meets is one of the operands of the statement reached
last. -/
structure Follows (w : Walk Encoding) (way : List (Locator × Statement)) (goal : Locator) :
    Prop where
  along : w.trace Encoding.locator <+: way
  arrives : w.error = none → w.trace Encoding.locator = way ∧ w.final.locator = goal
  fails : ∀ error, w.error = some error → ∃ visit fault, w.visits.getLast? = some visit ∧
    error = .located visit.2.line fault ∧ fault.concernsOperands = true

theorem follows_of_fault {fault : Fault} (rest : List Statement)
    (way : List (Locator × Statement)) (goal : Locator)
    (h : step symbols e s = (e, some fault)) (hfault : fault.concernsOperands = true) :
    Follows (Walk.through (step symbols) e (s :: rest)) ((e.locator, s) :: way) goal := by
  rw [Walk.through_fault rest h]
  constructor
  · exact ⟨way, rfl⟩
  · rintro ⟨⟩
  · rintro error ⟨⟩
    exact ⟨(e, s), fault, rfl, rfl, hfault⟩

theorem Follows.next {e' : Encoding} {rest : List Statement} {way : List (Locator × Statement)}
    {goal : Locator} (hstep : step symbols e s = (e', none)) (hend : s.isEnd = false)
    (h : Follows (Walk.through (step symbols) e' rest) way goal) :
    Follows (Walk.through (step symbols) e (s :: rest)) ((e.locator, s) :: way) goal := by
  rw [Walk.through_next rest hstep hend]
  constructor
  · exact List.cons_prefix_cons.mpr ⟨rfl, h.along⟩
  · intro herror
    obtain ⟨htrace, hgoal⟩ := h.arrives herror
    exact ⟨congrArg ((e.locator, s) :: ·) htrace, hgoal⟩
  · intro error herror
    obtain ⟨visit, fault, hlast, rest⟩ := h.fails error herror
    refine ⟨visit, fault, ?_, rest⟩
    simp [List.getLast?_cons, hlast]

/-- The whole run: the second pass follows a first pass that met no fault. -/
theorem follows_of_runs [Interpreter.Steady] {final : Survey} {statements : List Statement}
    {visits : List (Survey × Statement)}
    (hrun : Walk.Runs Survey.step v statements visits final)
    (hs : ∀ s ∈ statements, s.HidesNothing) (hgrow : final.symbols.GrowsTo symbols)
    (hloc : e.locator = v.locator) :
    Follows (Walk.through (step symbols) e statements)
      (visits.map fun visit => (visit.1.locator, visit.2)) final.locator := by
  induction hrun generalizing e with
  | nil v => exact ⟨List.prefix_refl _, fun _ => ⟨rfl, hloc⟩, nofun⟩
  | @stop v v' s rest hstep hend =>
    have hv := Survey.growsTo_of_step (hs s List.mem_cons_self) hstep
    rcases step_agrees hstep hloc (hv.trans hgrow) hgrow
      with ⟨e', he', hloc'⟩ | ⟨fault, hf, hop⟩
    · rw [Walk.through_end rest he' hend]
      refine ⟨?_, fun _ => ⟨?_, hloc'⟩, nofun⟩
      · simp [Walk.trace, hloc]
      · simp [Walk.trace, hloc]
    · rw [List.map_cons, ← hloc]
      exact follows_of_fault rest _ _ hf hop
  | @next v v' final s rest visits hstep hend hrest ih =>
    have hs' : ∀ s ∈ rest, s.HidesNothing := fun s hmem => hs s (List.mem_cons_of_mem _ hmem)
    have hv := Survey.growsTo_of_step (hs s List.mem_cons_self) hstep
    have hv' := (Survey.growsTo_of_runs hrest hs').trans hgrow
    rw [List.map_cons, ← hloc]
    rcases step_agrees hstep hloc (hv.trans hv') hv'
      with ⟨e', he', hloc'⟩ | ⟨fault, hf, hop⟩
    · exact .next he' hend (ih hs' hgrow hloc')
    · exact follows_of_fault rest _ _ hf hop

end Encoding

/-- The statements of a listing whose labels are neither `PC` nor `LINENO` hide nothing. -/
theorem Listing.hidesNothing {implicitLabels : Bool} {lines : List SourceLine} {s : Statement}
    (hs : s ∈ (ofLines implicitLabels lines).statements)
    (hlabel : s.label ≠ some "PC" ∧ s.label ≠ some "LINENO") : s.HidesNothing := by
  intro name hname hmem
  have hup := upper_label hs hname
  simp only [predeclaredNames, List.mem_cons, List.not_mem_nil, or_false] at hmem
  rcases hmem with hpc | hline
  · rw [hpc] at hup
    exact hlabel.1 (hname.trans (congrArg some hup.symm))
  · rw [hline] at hup
    exact hlabel.2 (hname.trans (congrArg some hup.symm))

/-- The second pass follows the first. A survey without a fault visits every statement up to the
first `.END`; encoding with its symbols reaches each of them with the same locator until an operand
fails, and that is the only way it can fail: never for an address past the limit, nor for
an origin. -/
theorem encoding_follows_survey [Interpreter] [Interpreter.Steady] (a : Assembler)
    (implicitLabels : Bool) (lines : List SourceLine)
    (symbols : SymbolTable)
    (hlabels : ∀ s ∈ (Listing.ofLines implicitLabels lines).statements,
      s.label ≠ some "PC" ∧ s.label ≠ some "LINENO")
    (hsurvey : (a.survey (Listing.ofLines implicitLabels lines).statements).result =
      (symbols, none)) :
    ∃ predefined, SymbolTable.empty.defineAll a.predefined.toList = .ok predefined ∧
      let statements := (Listing.ofLines implicitLabels lines).statements
      let first := Survey.walk predefined statements
      let second := Encoding.walk symbols statements
      first.visits.map (·.2) = Statement.upToEnd statements ∧
      second.trace Encoding.locator <+: first.trace Survey.locator ∧
      (second.error = none → second.trace Encoding.locator = first.trace Survey.locator) ∧
      ∀ error, (a.encode statements symbols).result = .error error →
        ∃ visit fault, second.visits.getLast? = some visit ∧
          error = .located visit.2.line fault ∧ fault.concernsOperands = true ∧
          fault ≠ .addressOverflow ∧ fault ≠ .misalignedOrigin ∧
            fault ≠ .discontiguousOrigin := by
  obtain ⟨predefined, hdef, hrun, rfl⟩ := Assembler.runs_of_survey hsurvey
  have hfollows := Encoding.follows_of_runs (e := .start) hrun
    (fun s hs => Listing.hidesNothing hs (hlabels s hs)) (.refl _) rfl
  refine ⟨predefined, hdef, hrun.visited, hfollows.along,
    fun h => (hfollows.arrives h).1, fun error herr => ?_⟩
  obtain ⟨visit, fault, hlast, hlocated, hop⟩ :=
    hfollows.fails error (Assembler.error_of_encode herr)
  refine ⟨visit, fault, hlast, hlocated, hop, ?_, ?_, ?_⟩
  · rintro rfl; cases hop
  · rintro rfl; cases hop
  · rintro rfl; cases hop

/-- A source whose `.BLKW` operands use a predefined symbol, the line number and labels. -/
def reservingLines : List SourceLine :=
  SourceLine.ofTexts [".ORIG x4000", "TABLE: .BLKW $(SIZE + LINENO)",
    "NEXT: .BLKW $((NEXT - TABLE) // 2)", "BR TABLE", ".END"]

/-- The source that reserves words is encoded along the way of its survey. -/
theorem encoding_follows_survey_reserving :
    let a : Assembler := Assembler.predefine {} "size" 2
    let statements := (Listing.ofLines false reservingLines).statements
    (∀ s ∈ statements, s.label ≠ some "PC" ∧ s.label ≠ some "LINENO") ∧
      (a.survey statements).result.2 = none ∧
      ∃ predefined, SymbolTable.empty.defineAll a.predefined.toList = .ok predefined ∧
        (Encoding.walk (a.survey statements).result.1 statements).trace Encoding.locator <+:
          (Survey.walk predefined statements).trace Survey.locator := by
  have hlabels : ∀ s ∈ (Listing.ofLines false reservingLines).statements,
      s.label ≠ some "PC" ∧ s.label ≠ some "LINENO" := by decide +kernel
  have hsurvey : (Assembler.survey (Assembler.predefine {} "size" 2)
      (Listing.ofLines false reservingLines).statements).result.2 = none := by decide +kernel
  refine ⟨hlabels, hsurvey, ?_⟩
  obtain ⟨predefined, hdef, -, htrace, -⟩ :=
    encoding_follows_survey (Assembler.predefine {} "size" 2) false reservingLines _ hlabels
      (Assembler.survey_eq hsurvey)
  exact ⟨predefined, hdef, htrace⟩

end LittleComputer
