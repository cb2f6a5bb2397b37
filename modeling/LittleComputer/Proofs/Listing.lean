import LittleComputer.Proofs.Label
import LittleComputer.Proofs.Walk

/-!
# Lines of a listing

A listing is made line by line. Its statements keep the order of their lines, a line gives at most
one of them, and an `.END` can only be the last. Lines that are read are numbered, so that no two
are the same and a statement is known by its line.
-/

namespace LittleComputer

open Outcome

namespace Listing

variable {implicitLabels : Bool} {line : SourceLine} {rest : List SourceLine}

theorem ofLinesFrom_seen (lines : List SourceLine) (seen : List Statement) :
    ofLinesFrom implicitLabels lines seen =
      { ofLines implicitLabels lines with
        statements := seen.reverse ++ (ofLines implicitLabels lines).statements } := by
  unfold ofLines
  induction lines generalizing seen with
  | nil => simp [ofLinesFrom]
  | cons line rest ih =>
    unfold ofLinesFrom
    split
    · simp
    · exact ih seen
    · rename_i s hs
      split
      · simp
      · rw [ih (s :: seen), ih [s]]
        simp

theorem ofLines_error {fault : Fault} (h : Statement.ofLine implicitLabels line = .error fault) :
    ofLines implicitLabels (line :: rest) = ⟨[], some (.located line fault)⟩ := by
  simp [ofLines, ofLinesFrom, h]

theorem ofLines_none (h : Statement.ofLine implicitLabels line = .ok none) :
    ofLines implicitLabels (line :: rest) = ofLines implicitLabels rest := by
  simp [ofLines, ofLinesFrom, h]

theorem ofLines_end {s : Statement} (h : Statement.ofLine implicitLabels line = .ok (some s))
    (hend : s.isEnd = true) : ofLines implicitLabels (line :: rest) = ⟨[s], none⟩ := by
  simp [ofLines, ofLinesFrom, h, hend]

theorem ofLines_next {s : Statement} (h : Statement.ofLine implicitLabels line = .ok (some s))
    (hend : s.isEnd = false) :
    ofLines implicitLabels (line :: rest) =
      { ofLines implicitLabels rest with
        statements := s :: (ofLines implicitLabels rest).statements } := by
  rw [ofLines, ofLinesFrom, h]
  simp only [hend, Bool.false_eq_true, if_false]
  rw [ofLinesFrom_seen]
  rfl

/-- The statements stand in the order of their lines, and no line gives two. -/
theorem lines_sublist (implicitLabels : Bool) (lines : List SourceLine) :
    ((ofLines implicitLabels lines).statements.map (·.line)).Sublist lines := by
  induction lines with
  | nil => exact List.Sublist.refl []
  | cons line rest ih =>
    cases hline : Statement.ofLine implicitLabels line with
    | error fault =>
      rw [ofLines_error hline]
      exact List.nil_sublist _
    | ok found =>
      cases found with
      | none =>
        rw [ofLines_none hline]
        exact ih.cons line
      | some s =>
        have hs := Statement.line_of_ofLine hline
        cases hend : s.isEnd with
        | true =>
          rw [ofLines_end hline hend, List.map_singleton, hs]
          exact (List.nil_sublist rest).cons_cons line
        | false =>
          rw [ofLines_next hline hend, List.map_cons, hs]
          exact ih.cons_cons line

/-- Nothing in a listing stands behind an `.END`. -/
theorem upToEnd_ofLines (implicitLabels : Bool) (lines : List SourceLine) :
    Statement.upToEnd (ofLines implicitLabels lines).statements =
      (ofLines implicitLabels lines).statements := by
  induction lines with
  | nil => rfl
  | cons line rest ih =>
    cases hline : Statement.ofLine implicitLabels line with
    | error fault =>
      rw [ofLines_error hline]
      rfl
    | ok found =>
      cases found with
      | none =>
        rw [ofLines_none hline]
        exact ih
      | some s =>
        cases hend : s.isEnd with
        | true =>
          rw [ofLines_end hline hend]
          simp [Statement.upToEnd, hend]
        | false =>
          rw [ofLines_next hline hend]
          simp [Statement.upToEnd, hend, ih]

end Listing

theorem SourceLine.nodup_ofTexts (texts : List Text) : (SourceLine.ofTexts texts).Nodup := by
  have hindex : texts.zipIdx.Pairwise fun x y => x.2 ≠ y.2 := by
    apply List.pairwise_map.mp
    rw [List.zipIdx_map_snd]
    exact List.nodup_range'
  unfold SourceLine.ofTexts
  refine List.pairwise_map.mpr (hindex.imp fun hne heq => hne ?_)
  have hnumber := congrArg SourceLine.number heq
  simp only at hnumber
  omega

end LittleComputer
