import LittleComputer.Proofs.Listing
import LittleComputer.Proofs.Scan

/-!
# Implicit labels

With implicit labels a word right before a keyword is a label without a colon. What is a statement
without them stays the one it is, so they only add lines to those that are accepted. And none of the
added lines says anything new: with a colon behind its first word, and nothing in front of it, it
has the same statement without implicit labels. The two readings go different ways. One finds the
label among the words of the line, the other splits it off first and then finds the words of what is
left.
-/

namespace LittleComputer

open Outcome

/-! ## Accepted lines stay accepted -/

namespace Statement

variable {line : SourceLine} {label : Option Text} {words : List Text} {s : Statement}

theorem ofWords_true (h : ofWords false line label words = .ok s) :
    ofWords true line label words = .ok s := by
  cases words with
  | nil => exact h
  | cons word rest =>
    unfold ofWords at h ⊢
    simp only at h ⊢
    cases hword : Mnemonic.ofWord? word with
    | some m =>
      rw [hword] at h
      exact h
    | none =>
      rw [hword] at h
      cases h

theorem ofLine_true {found : Option Statement} (h : ofLine false line = .ok found) :
    ofLine true line = .ok found := by
  unfold ofLine at h ⊢
  simp only at h ⊢
  split at h
  · rename_i hempty
    rw [if_pos hempty]
    exact h
  · rename_i hempty
    rw [if_neg hempty]
    split at h
    · obtain ⟨name, hname, h⟩ := bind_eq_ok.mp h
      obtain ⟨s, hs, rfl⟩ := map_eq_ok.mp h
      exact bind_eq_ok.mpr ⟨name, hname, map_eq_ok.mpr ⟨s, ofWords_true hs, rfl⟩⟩
    · obtain ⟨s, hs, rfl⟩ := map_eq_ok.mp h
      exact map_eq_ok.mpr ⟨s, ofWords_true hs, rfl⟩

end Statement

theorem Listing.ofLines_true {lines : List SourceLine} (h : (ofLines false lines).error = none) :
    ofLines true lines = ofLines false lines := by
  induction lines with
  | nil => rfl
  | cons line rest ih =>
    cases hline : Statement.ofLine false line with
    | error fault =>
      rw [ofLines_error hline] at h
      cases h
    | ok found =>
      have htrue := Statement.ofLine_true hline
      cases found with
      | none =>
        rw [ofLines_none hline] at h
        rw [ofLines_none hline, ofLines_none htrue, ih h]
      | some s =>
        cases hend : s.isEnd with
        | true => rw [ofLines_end hline hend, ofLines_end htrue hend]
        | false =>
          rw [ofLines_next hline hend] at h
          rw [ofLines_next hline hend, ofLines_next htrue hend, ih h]

/-! ## A colon behind the first word -/

namespace Text

variable {cs : List Char} (hplain : ∀ c ∈ cs, isPlain c = true)

include hplain

theorem splitLabel?_marked (t : Text) :
    splitLabel? (cs.map .char ++ .char ':' :: t) = some (cs.map .char, t.trim) := by
  have hlabel : ∀ g ∈ cs.map Glyph.char, isLabelGlyph g = true := by
    intro g hg
    have hne (x : Char) (hx : isPlain x = false) := Glyph.is_of_plain hplain hx g hg
    rw [isLabelGlyph, hne '"' (by decide), hne '(' (by decide), hne ':' (by decide)]
    rfl
  have hcolon : ¬isLabelGlyph (.char ':') = true := by decide
  unfold splitLabel?
  rw [List.dropWhile_append_of_pos hlabel, List.dropWhile_cons_of_neg hcolon,
    List.takeWhile_append_of_pos hlabel, List.takeWhile_cons_of_neg hcolon, List.append_nil,
    trim_of_unblank (Glyph.isBlank_of_plain hplain)]
  rfl

theorem trim_marked {tail blanks : Text} (hlast : ∀ g ∈ tail.getLast?, g.isBlank = false)
    (hblanks : ∀ g ∈ blanks, g.isBlank = true) :
    trim (cs.map .char ++ .char ':' :: (tail ++ blanks)) = cs.map .char ++ .char ':' :: tail := by
  have hcolon : (Glyph.char ':').isBlank = false := by decide
  rw [← List.cons_append, ← List.append_assoc]
  refine trim_append (fun g hg => ?_) (fun g hg => ?_) hblanks
  · cases cs with
    | nil =>
      cases hg
      exact hcolon
    | cons c rest =>
      cases hg
      exact Glyph.isBlank_of_plain hplain _ List.mem_cons_self
  · rw [List.getLast?_append, List.getLast?_cons, Option.some_or] at hg
    cases hg
    cases htail : tail.getLast? with
    | none => exact hcolon
    | some g => exact hlast g htail

/-- A text whose first word is an identifier holds it behind separators. With a colon behind it and
nothing in front of it, the text is, without its comment and trimmed, the identifier, the colon and
what has the other words. -/
theorem cut_of_first {t : Text} {others : List Text}
    (h : t.stripComment.trim.words = cs.map .char :: others)
    (hword : isIdentifier (cs.map .char) = true) :
    ∃ front back tail : Text, t = front ++ cs.map .char ++ back ∧
      (∀ g ∈ front, g.isSeparator = true) ∧
      (stripComment (cs.map .char ++ .char ':' :: back)).trim = cs.map .char ++
        .char ':' :: tail ∧
      tail.trim.words = others := by
  obtain ⟨before, behind, hstripped, hbefore, hbehind⟩ := exists_trim t.stripComment
  obtain ⟨separators, tail, htrimmed, hseparators, hothers⟩ := cut_of_words h hword
  have hwhole : t.stripComment = before ++ separators ++ cs.map .char ++ (tail ++ behind) := by
    rw [htrimmed] at hstripped
    rw [hstripped]
    simp only [List.append_assoc]
  have hfront : ∀ g ∈ before ++ separators, g.isSeparator = true := by
    intro g hg
    rcases List.mem_append.mp hg with hg | hg
    · rw [Glyph.isSeparator, hbefore g hg, Bool.or_true]
    · exact hseparators g hg
  have hunquoted : ∀ g ∈ cs.map Glyph.char, g.is ';' = false ∧ g.is '"' = false := fun g hg =>
    ⟨Glyph.is_of_plain hplain (by decide) g hg, Glyph.is_of_plain hplain (by decide) g hg⟩
  have hpassed : ∀ g ∈ before ++ separators ++ cs.map Glyph.char, g.is ';' = false ∧
      g.is '"' = false := by
    intro g hg
    rcases List.mem_append.mp hg with hg | hg
    · exact ⟨Glyph.is_of_separator (hfront g hg) (by decide) (by decide),
        Glyph.is_of_separator (hfront g hg) (by decide) (by decide)⟩
    · exact hunquoted g hg
  -- No quote and no comment starts before the tail, so it loses the comment that the text loses.
  obtain ⟨back, hback, hstrip⟩ := cut_of_stripComment hpassed hwhole
  have hlast : ∀ g ∈ tail.getLast?, g.isBlank = false := by
    intro g hg
    refine getLast?_trim t.stripComment g ?_
    rw [htrimmed, List.getLast?_append, Option.mem_def.mp hg]
    rfl
  have hcolon : stripComment (.char ':' :: back) = .char ':' :: (tail ++ behind) := by
    have hmark : ∀ g ∈ [Glyph.char ':'], g.is ';' = false ∧ g.is '"' = false := by decide
    rw [← List.singleton_append, stripComment_append hmark, hstrip, List.singleton_append]
  refine ⟨before ++ separators, back, tail, hback, hfront, ?_, ?_⟩
  · rw [stripComment_append hunquoted, hcolon, trim_marked hplain hlast hbehind]
  · rw [words_trim hlast, hothers]

end Text

namespace Statement

variable {line : SourceLine} {s : Statement} {name : Text}

/-- A line without a colon that has a statement with a label has the label as its first word, and a
keyword as the second one. -/
theorem words_of_implicit (hcolon : line.text.stripComment.trim.splitLabel? = none)
    (h : ofLine true line = .ok (some s)) (hname : s.label = some name) :
    ∃ word second m, line.text.stripComment.trim.words = word :: second :: s.operands ∧
      Mnemonic.ofWord? second = some m ∧ word.labelName = .ok name ∧
      s = ⟨line, some name, .keyword m, s.operands⟩ := by
  have hwords : ofWords true line none line.text.stripComment.trim.words = .ok s := by
    unfold ofLine at h
    simp only [hcolon] at h
    split at h
    · cases h
    · obtain ⟨s', hs', h⟩ := map_eq_ok.mp h
      cases h
      exact hs'
  obtain ⟨-, hs⟩ | ⟨_, _, -, -, hs⟩ | ⟨word, second, m, name', hline, hm, hlabel, hs⟩ :=
    cases_of_ofWords hwords
  · rw [hs] at hname
    cases hname
  · rw [hs] at hname
    cases hname
  · obtain rfl : name' = name := by
      rw [hs] at hname
      exact Option.some.inj hname
    exact ⟨word, second, m, hline, hm, hlabel, hs⟩

/-- A line with a colon behind plain characters has the statement of what is behind the colon, with
these as its label. -/
theorem ofLine_marked {implicitLabels : Bool} {cs : List Char} {tail : Text}
    (hplain : ∀ c ∈ cs, isPlain c = true)
    (hmarked : line.text.stripComment.trim = cs.map .char ++ .char ':' :: tail)
    (hlabel : Text.labelName (cs.map .char) = .ok name) :
    ofLine implicitLabels line =
      some <$> ofWords implicitLabels line (some name) tail.trim.words := by
  have hsome : ¬(cs.map Glyph.char ++ .char ':' :: tail).isEmpty = true := by simp
  unfold ofLine
  simp only [hmarked, Text.splitLabel?_marked hplain, hlabel]
  rw [if_neg hsome]
  rfl

end Statement

/-- Implicit labels extend explicit ones and add nothing that these cannot say. Lines that are
accepted without implicit labels have the same statements with them. And a line that has no colon,
but a statement with a label, has the label as its first word, behind separators only; with a colon
right behind that word and nothing in front of it, it has the same statement without implicit
labels. -/
theorem implicit_labels_extend_explicit :
    (∀ lines : List SourceLine, (Listing.ofLines false lines).error = none →
      Listing.ofLines true lines = Listing.ofLines false lines) ∧
    ∀ (line : SourceLine) (s : Statement) (name : Text),
      line.text.stripComment.trim.splitLabel? = none →
      Statement.ofLine true line = .ok (some s) → s.label = some name →
      ∃ front word back : Text, line.text = front ++ word ++ back ∧
        (∀ g ∈ front, g.isSeparator = true) ∧
          line.text.stripComment.trim.words.head? = some word ∧
        word.labelName = .ok name ∧
        Statement.ofLine false { line with text := word ++ .char ':' :: back } =
          .ok (some { s with line := { line with text := word ++ .char ':' :: back } }) := by
  refine ⟨fun lines h => Listing.ofLines_true h, fun line s name hcolon hline hname => ?_⟩
  obtain ⟨word, second, m, hwords, hm, hlabel, hs⟩ :=
    Statement.words_of_implicit hcolon hline hname
  have hidentifier := (Text.labelName_eq_ok.mp hlabel).1
  obtain ⟨cs, rfl, hplain⟩ :=
    Text.plain_of_continues (Text.continues_of_isIdentifier hidentifier)
  obtain ⟨front, back, tail, htext, hfront, hmarked, htail⟩ :=
    Text.cut_of_first hplain hwords hidentifier
  refine ⟨front, cs.map .char, back, htext, hfront, by rw [hwords]; rfl, hlabel, ?_⟩
  rw [Statement.ofLine_marked hplain hmarked hlabel, htail, hs]
  simp only [Statement.ofWords, hm]
  rfl

/-- A label behind a comma, and a string with a colon, a semicolon and a parenthesis in it. -/
def implicitLine : SourceLine := ⟨2, " , text .STRINGZ \"a: (;\" ,, ; said: \"a"⟩

/-- Two lines that need no implicit label are two statements with implicit labels as well. The line
above needs one, and gets the same statement without it by a colon behind its first word. -/
theorem implicit_labels_extend_explicit_string :
    (Listing.ofLines true (SourceLine.ofTexts ["GO: LEA R0, TEXT", "HALT"])).statements.length =
      2 ∧
    Statement.ofLine true implicitLine =
      .ok (some ⟨implicitLine, some "TEXT", .keyword .stringz, ["\"a: (;\""]⟩) ∧
    ∃ front word back : Text, implicitLine.text = front ++ word ++ back ∧
      (∀ g ∈ front, g.isSeparator = true) ∧ word = "text" ∧
      Statement.ofLine false ⟨2, word ++ .char ':' :: back⟩ = .ok (some
        ⟨⟨2, word ++ .char ':' :: back⟩, some "TEXT", .keyword .stringz,
          ["\"a: (;\""]⟩) := by
  obtain ⟨hlines, hline⟩ := implicit_labels_extend_explicit
  have hstatement : Statement.ofLine true implicitLine =
      .ok (some ⟨implicitLine, some "TEXT", .keyword .stringz, ["\"a: (;\""]⟩) :=
    eq_ok_of_toOption (by decide +kernel)
  refine ⟨?_, hstatement, ?_⟩
  · rw [hlines _ (by decide +kernel)]
    decide +kernel
  · obtain ⟨front, word, back, htext, hfront, hfirst, -, hmarked⟩ :=
      hline implicitLine _ "TEXT" (by decide +kernel) hstatement rfl
    have hword : implicitLine.text.stripComment.trim.words.head? = some "text" := by decide +kernel
    exact ⟨front, word, back, htext, hfront, Option.some.inj (hfirst.symm.trans hword), hmarked⟩

end LittleComputer
