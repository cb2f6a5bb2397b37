import LittleComputer.Assembler
import LittleComputer.Expression.Evaluation
import LittleComputer.Proofs.Listing

/-!
# Nothing behind the end matters

Three loops stop behind the first `.END`: the one that makes statements of lines, and the two passes
over these. Each of them is written on its own, but all see the same part of a source. Whatever
comes behind it, text that is no statement, labels that are there already or words that no longer
fit, changes neither what they give nor how they fail.
-/

namespace LittleComputer

theorem Statement.isEnd_iff {s : Statement} :
    s.isEnd = true ↔ s.operation = .keyword .finish := by
  unfold isEnd
  rw [beq_iff_eq]

theorem Statement.upToEnd_append {s : Statement} (hend : s.isEnd = true)
    (before after : List Statement) :
    upToEnd (before ++ s :: after) = upToEnd (before ++ [s]) := by
  induction before with
  | nil => simp [upToEnd, hend]
  | cons first before ih => simp [upToEnd, ih]

namespace Walk

variable {σ : Type} (step : σ → Statement → σ × Option Fault)

/-- A walk sees the statements up to the first `.END` only, also if it fails before. -/
theorem through_upToEnd (state : σ) (statements : List Statement) :
    through step state (Statement.upToEnd statements) = through step state statements := by
  induction statements generalizing state with
  | nil => rfl
  | cons s rest ih =>
    unfold Statement.upToEnd
    rcases hstep : step state s with ⟨next, _ | fault⟩
    · cases hend : s.isEnd with
      | true =>
        rw [if_pos rfl, through_end [] hstep hend, through_end rest hstep hend]
      | false =>
        rw [if_neg Bool.false_ne_true, through_next _ hstep hend, through_next _ hstep hend, ih]
    · split
      · rw [through_fault [] hstep, through_fault rest hstep]
      · rw [through_fault _ hstep, through_fault rest hstep]

theorem through_append_end (state : σ) {s : Statement} (hend : s.isEnd = true)
    (before after : List Statement) :
    through step state (before ++ s :: after) = through step state (before ++ [s]) := by
  rw [← through_upToEnd, Statement.upToEnd_append hend, through_upToEnd]

end Walk

/-- A listing that ends with an `.END` has stopped there and met no fault, so that it stays the same
when lines are added. -/
theorem Listing.ofLines_append_end {implicitLabels : Bool} {lines : List SourceLine} {s : Statement}
    (hlast : (ofLines implicitLabels lines).statements.getLast? = some s) (hend : s.isEnd = true)
    (more : List SourceLine) :
    (ofLines implicitLabels lines).error = none ∧
      ofLines implicitLabels (lines ++ more) = ofLines implicitLabels lines := by
  induction lines with
  | nil => cases hlast
  | cons line rest ih =>
    rw [List.cons_append]
    cases hline : Statement.ofLine implicitLabels line with
    | error fault =>
      rw [ofLines_error hline] at hlast
      cases hlast
    | ok found =>
      cases found with
      | none =>
        rw [ofLines_none hline] at hlast
        rw [ofLines_none hline, ofLines_none hline]
        exact ih hlast
      | some first =>
        cases hfirst : first.isEnd with
        | true =>
          rw [ofLines_end hline hfirst, ofLines_end hline hfirst]
          exact ⟨rfl, rfl⟩
        | false =>
          rw [ofLines_next hline hfirst, List.getLast?_cons] at hlast
          -- the first statement is no `.END`, so the last one comes from the lines behind it
          have hrest : (ofLines implicitLabels rest).statements.getLast? = some s := by
            cases hbehind : (ofLines implicitLabels rest).statements.getLast? with
            | none =>
              rw [hbehind] at hlast
              obtain rfl : first = s := Option.some.inj hlast
              cases hfirst.symm.trans hend
            | some last =>
              rw [hbehind] at hlast
              exact hlast
          obtain ⟨herror, hmore⟩ := ih hrest
          rw [ofLines_next hline hfirst, ofLines_next hline hfirst, hmore]
          exact ⟨herror, rfl⟩

/-- Nothing behind the end matters. Lines behind those whose last statement is an `.END` leave the
listing as it is, with labels of either kind. Statements behind an `.END`, whatever label and
operands it has and whatever stands before it, leave both passes as they are: their results, the
symbols found before a fault, the faults and the logs. -/
theorem nothing_behind_end_matters [Interpreter] :
    (∀ (implicitLabels : Bool) (lines more : List SourceLine) (s : Statement),
      (Listing.ofLines implicitLabels lines).statements.getLast? = some s →
      s.operation = .keyword .finish →
      (Listing.ofLines implicitLabels lines).error = none ∧
      Listing.ofLines implicitLabels (lines ++ more) = Listing.ofLines implicitLabels lines) ∧
    ∀ (a : Assembler) (before after : List Statement) (s : Statement),
      s.operation = .keyword .finish →
      a.survey (before ++ [s] ++ after) = a.survey (before ++ [s]) ∧
      ∀ symbols : SymbolTable,
        a.encode (before ++ [s] ++ after) symbols = a.encode (before ++ [s]) symbols := by
  refine ⟨fun implicitLabels lines more s hlast hend => ?_,
    fun a before after s hend => ⟨?_, fun symbols => ?_⟩⟩
  · exact Listing.ofLines_append_end hlast (Statement.isEnd_iff.mpr hend) more
  · have hwalk (symbols : SymbolTable) :
        Survey.walk symbols (before ++ [s] ++ after) = Survey.walk symbols (before ++ [s]) := by
      rw [List.append_assoc]
      exact Walk.through_append_end Survey.step _ (Statement.isEnd_iff.mpr hend) before after
    unfold Assembler.survey
    simp only [hwalk]
  · have hwalk : Encoding.walk symbols (before ++ [s] ++ after) =
        Encoding.walk symbols (before ++ [s]) := by
      rw [List.append_assoc]
      exact Walk.through_append_end (Encoding.step symbols) _ (Statement.isEnd_iff.mpr hend)
        before after
    unfold Assembler.encode
    rw [hwalk]

/-- A word, and an `.END` with a label and an operand. -/
def endedLines : List SourceLine := SourceLine.ofTexts [".FILL DONE", "DONE: .END now"]

/-- Statements that no pass would go through: a label that is there already, an instruction that
there is not, and more words than fit. -/
def statementsBehind : List Statement :=
  [⟨⟨3, "DONE: HALT"⟩, some "DONE", .keyword .halt, []⟩,
    ⟨⟨4, ""⟩, none, .unlisted 99, []⟩,
    ⟨⟨5, ".BLKW xFFFF"⟩, none, .keyword .blkw, ["xFFFF"]⟩]

/-- The lines give the same two statements with text behind them that is no statement, and these
assemble with the others behind them. -/
theorem nothing_behind_end_matters_ended :
    ∃ first last : Statement, Listing.ofLines true endedLines = ⟨[first, last], none⟩ ∧
      Listing.ofLines true (endedLines ++ [⟨3, "GARBAGE \"R1"⟩]) = ⟨[first, last], none⟩ ∧
      ((Assembler.survey {} ([first] ++ [last] ++ statementsBehind)).result.1.lookup? "done" =
        some 0x3002) ∧
      ∃ prog, (Assembler.encode {} ([first] ++ [last] ++ statementsBehind)
        (SymbolTable.empty.assign "DONE" 0x3002)).result = .ok prog ∧ prog.words = [0x3002] := by
  obtain ⟨hlines, hpasses⟩ := nothing_behind_end_matters
  have hlisting : ∃ first last : Statement,
      Listing.ofLines true endedLines = ⟨[first, last], none⟩ ∧
      last.operation = .keyword .finish ∧
      ((Assembler.survey {} ([first] ++ [last])).result.1.lookup? "done" = some 0x3002) ∧
      ∃ prog, (Assembler.encode {} ([first] ++ [last])
        (SymbolTable.empty.assign "DONE" 0x3002)).result = .ok prog ∧ prog.words = [0x3002] := by
    refine ⟨⟨⟨1, ".FILL DONE"⟩, none, .keyword .fill, ["DONE"]⟩,
      ⟨⟨2, "DONE: .END now"⟩, some "DONE", .keyword .finish, ["now"]⟩, by decide, rfl,
      by decide, Outcome.exists_ok_of_any (by decide +kernel)⟩
  obtain ⟨first, last, hlisting, hend, hsurvey, prog, hencode, hwords⟩ := hlisting
  have hmore :=
    (hlines true endedLines [⟨3, "GARBAGE \"R1"⟩] last (by rw [hlisting]; rfl) hend).2
  obtain ⟨hsame, hsame'⟩ := hpasses {} [first] statementsBehind last hend
  refine ⟨first, last, hlisting, hmore.trans hlisting, ?_, prog, ?_, hwords⟩
  · rw [hsame]
    exact hsurvey
  · rw [hsame']
    exact hencode

end LittleComputer
