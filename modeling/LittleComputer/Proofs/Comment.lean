import LittleComputer.Proofs.Bytes
import LittleComputer.Proofs.Respelling
import LittleComputer.Proofs.Scan
import LittleComputer.Proofs.SideBySide

/-!
# Comments have no effect

A line is read without its comment, and no pass looks at a line again once it has its statement.
What is left of a line has no comment itself, and a comment may be put behind it again where no
string is open. So lines may lose their comments, keep them or get other ones, of any bytes, and the
program stays the same.
-/

namespace LittleComputer

open Outcome

/-! ## Taking comments off -/

namespace Text

/-- No comment is left. -/
theorem stripCommentFrom_idem (q : Quoting) (t : Text) :
    stripCommentFrom q (stripCommentFrom q t []) [] = stripCommentFrom q t [] := by
  induction t generalizing q with
  | nil => rfl
  | cons g rest ih =>
    rw [stripCommentFrom_cons]
    split
    · rfl
    · rename_i hkept
      rw [stripCommentFrom_cons, if_neg hkept, ih]

/-- Behind a rest that ends outside of strings, a semicolon starts a comment. -/
theorem stripCommentFrom_commented (q : Quoting) (t comment : Text)
    (h : q.after (stripCommentFrom q t []) = .outside) :
    stripCommentFrom q (stripCommentFrom q t [] ++ .char ';' :: comment) [] =
      stripCommentFrom q t [] := by
  have hmark : stripCommentFrom .outside (.char ';' :: comment) [] = [] := by
    rw [stripCommentFrom_cons, if_pos ⟨rfl, rfl⟩]
  induction t generalizing q with
  | nil =>
    cases h
    exact hmark
  | cons g rest ih =>
    rw [stripCommentFrom_cons] at h ⊢
    split at h
    · rename_i hcomment
      rw [if_pos hcomment, hcomment.1]
      exact hmark
    · rename_i hkept
      rw [if_neg hkept, List.cons_append, stripCommentFrom_cons, if_neg hkept, ih _ h]

end Text

/-! ## Bytes of lines -/

/-- What is left of a line in bytes once its comment is taken off. -/
def uncommented (bytes : List UInt8) : List UInt8 := (Text.ofBytes bytes).stripComment.toBytes

/-- Ways to write a line with the same statement: as it is, without its comment, or with a comment
of any bytes in its place. The last is possible if the rest of the line ends outside of strings. -/
inductive Recommented (bytes : List UInt8) : List UInt8 → Prop
  | same : Recommented bytes bytes
  | bare : Recommented bytes (uncommented bytes)
  | commented (comment : List UInt8)
      (hclosed : Quoting.outside.after (Text.ofBytes bytes).stripComment = .outside) :
      Recommented bytes (uncommented bytes ++ 0x3B :: comment)

/-- What is left of a line reads the same on its own, also behind bytes that are no UTF-8. -/
theorem Text.ofBytes_uncommented (bytes : List UInt8) :
    ofBytes (uncommented bytes) = (ofBytes bytes).stripComment := by
  unfold uncommented
  rcases stripCommentFrom_cut .outside (ofBytes bytes) with hwhole | ⟨comment, hcut⟩
  · have hstrip : (ofBytes bytes).stripComment = ofBytes bytes := hwhole
    rw [hstrip, toBytes_ofBytes]
  · have hmark : (Glyph.char ';').bytes = [0x3B] := rfl
    exact ofBytes_toBytes_of_cut hmark rfl hcut

theorem Recommented.stripComment {bytes bytes' : List UInt8} (h : Recommented bytes bytes') :
    (Text.ofBytes bytes').stripComment = (Text.ofBytes bytes).stripComment := by
  cases h with
  | same => rfl
  | bare =>
    rw [Text.ofBytes_uncommented]
    exact Text.stripCommentFrom_idem .outside (Text.ofBytes bytes)
  | commented comment hclosed =>
    have hmark : Text.ofBytes (0x3B :: comment) = .char ';' :: Text.ofBytes comment :=
      Text.ofBytes_of_lead (k := 0) (by rfl)
    rw [Text.ofBytes_border (by decide), hmark, Text.ofBytes_uncommented]
    exact Text.stripCommentFrom_commented .outside (Text.ofBytes bytes) _ hclosed

/-! ## Statements do not see their lines -/

/-- A statement means the same on any line of the same number. -/
theorem Statement.alike_onLine [Interpreter] {line : SourceLine} {s : Statement}
    (h : line.number = s.line.number) :
    s.Alike Eq { s with line := line } where
  number := h
  operation := rfl
  label := rfl
  origin := fun _ _ => .refl (fun _ => rfl) _
  size := fun _ => .refl (fun _ => rfl) _
  words := fun _ => .refl (fun _ => rfl) _

/-- Of its line a statement takes no more than what is left without the comment. -/
theorem Statement.ofLine_alike_of_stripComment [Interpreter] (implicitLabels : Bool)
    {line line' : SourceLine}
    (hnumber : line'.number = line.number) (h : line'.text.stripComment = line.text.stripComment) :
    Beside Eq (Option.Rel (Statement.Alike Eq)) (ofLine implicitLabels line)
      (ofLine implicitLabels line') := by
  have htext : line'.text.stripComment.trim = id line.text.stripComment.trim := by rw [h, id_eq]
  rw [Respelling.refl.ofLine implicitLabels htext]
  cases hfound : ofLine implicitLabels line with
  | error fault => exact .error rfl
  | ok found =>
    refine .ok ?_
    cases found with
    | none => exact .none
    | some s =>
      have hline : line'.number = s.line.number := by rw [line_of_ofLine hfound, hnumber]
      have hsame : respelled id line' s = { s with line := line' } := by
        unfold respelled
        rw [List.map_id]
      refine .some ?_
      rw [hsame]
      exact alike_onLine hline

/-! ## Sources -/

/-- Lines of the same numbers that are the same without comments assemble alike. -/
theorem Assembler.assembleLines_of_stripComment [Interpreter] (a : Assembler)
    {lines lines' : List SourceLine}
    (h : List.Forall₂ (fun line line' => line'.number = line.number ∧
      line'.text.stripComment = line.text.stripComment) lines lines') :
    Beside (Error.Beside Eq) (Program.Beside Eq) (a.assembleLines lines).result
      (a.assembleLines lines').result := by
  refine Assembler.assembleLines_beside (fun _ => rfl) a
    (h.imp fun line line' hline => ⟨hline.1, ?_⟩)
  exact Statement.ofLine_alike_of_stripComment a.implicitLabels hline.1 hline.2

/-- A line of bytes. -/
def SourceLine.ofBytes (line : Int × List UInt8) : SourceLine := ⟨line.1, Text.ofBytes line.2⟩

/-- Comments have no effect: sources of the same numbered lines, each of which may have lost its
comment or have got another one, assemble alike. Either both give programs with the same origin, the
same words at the same addresses from lines of the same numbers and the same symbols, or both fail
with the same fault in a line of the same number. -/
theorem comments_have_no_effect [Interpreter] (a : Assembler)
    (lines lines' : List (Int × List UInt8))
    (h : List.Forall₂ (fun line line' => line'.1 = line.1 ∧ Recommented line.2 line'.2)
      lines lines') :
    Beside (Error.Beside Eq) (Program.Beside Eq) (a.assembleLines (lines.map .ofBytes)).result
      (a.assembleLines (lines'.map .ofBytes)).result := by
  refine a.assembleLines_of_stripComment ?_
  rw [List.forall₂_map_left_iff, List.forall₂_map_right_iff]
  exact h.imp fun line line' hline => ⟨hline.1, hline.2.stripComment⟩

/-- A string that holds a semicolon and a quote, and lines with comments. -/
def greetingLines : List (Int × List UInt8) :=
  [(1, Text.toBytes ".STRINGZ \"a;\\\"b\" ; says \"hello"), (2, Text.toBytes "LOOP: BR LOOP;"),
    (7, Text.toBytes ".FILL LOOP")]

/-- The first line has lost its comment, the second has kept it, and the third has got one that is
no UTF-8. -/
def greetingLinesRecommented : List (Int × List UInt8) :=
  [(1, Text.toBytes ".STRINGZ \"a;\\\"b\" "), (2, Text.toBytes "LOOP: BR LOOP;"),
    (7, Text.toBytes ".FILL LOOP" ++ [0x3B, 0x80, 0xE2])]

/-- The string and the loop stay as they are. -/
theorem comments_have_no_effect_greeting :
    List.Forall₂ (fun line line' => line'.1 = line.1 ∧ Recommented line.2 line'.2) greetingLines
      greetingLinesRecommented ∧
    ∃ prog prog', (Assembler.assembleLines {} (greetingLines.map .ofBytes)).result = .ok prog ∧
      (Assembler.assembleLines {} (greetingLinesRecommented.map .ofBytes)).result = .ok prog' ∧
      prog.words = [0x61, 0x3B, 0x22, 0x62, 0, 0x0FFF, 0x300A] ∧
        Program.Beside Eq prog prog' := by
  have hfirst : uncommented (Text.toBytes ".STRINGZ \"a;\\\"b\" ; says \"hello") =
      Text.toBytes ".STRINGZ \"a;\\\"b\" " := by decide +kernel
  have hlast : uncommented (Text.toBytes ".FILL LOOP") = Text.toBytes ".FILL LOOP" := by
    decide +kernel
  have hlines : List.Forall₂ (fun line line' => line'.1 = line.1 ∧ Recommented line.2 line'.2)
      greetingLines
      greetingLinesRecommented := by
    refine .cons ⟨rfl, ?_⟩ (.cons ⟨rfl, .same⟩ (.cons ⟨rfl, ?_⟩ .nil))
    · simp only [← hfirst]
      exact .bare
    · simp only
      nth_rewrite 2 [← hlast]
      exact .commented [0x80, 0xE2] (by decide +kernel)
  have hprog : ∃ prog, (Assembler.assembleLines {} (greetingLines.map .ofBytes)).result =
      .ok prog ∧
      prog.words = [0x61, 0x3B, 0x22, 0x62, 0, 0x0FFF, 0x300A] :=
        exists_ok_of_any (by decide +kernel)
  obtain ⟨prog, hprog, hwords⟩ := hprog
  have hbeside := comments_have_no_effect {} greetingLines greetingLinesRecommented hlines
  obtain ⟨prog', hprog'⟩ := hbeside.exists_ok_iff.mp ⟨prog, hprog⟩
  rw [hprog, hprog'] at hbeside
  exact ⟨hlines, prog, prog', hprog, hprog', hwords, hbeside.of_ok⟩

end LittleComputer
