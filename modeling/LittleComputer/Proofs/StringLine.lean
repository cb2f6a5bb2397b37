import LittleComputer.Encoding
import LittleComputer.Proofs.Listing
import LittleComputer.Proofs.Reading

/-!
# String literals from the line to the words

Four scans meet a string: for the comment, for the label, for the words of the line and for the
characters of the literal. The first and the third follow the quotes. A text whose glyphs all stand
inside of a string is passed by both of them as it is, and what stands between the quotes of a
literal is such a text if quotes and backslashes in it are escaped. The second stops at the first
quote. The fourth undoes the escapes, one character after the other.
-/

namespace LittleComputer

open Outcome

/-! ## Inside of a string -/

namespace Quoting

/-- Whether every glyph of a text stands inside of a string. -/
def encloses : Quoting → Text → Bool
  | _, [] => true
  | q, g :: t => q ≠ .outside && (q.next g.scalar).encloses t

theorem encloses_append (q : Quoting) (s t : Text) :
    q.encloses (s ++ t) = (q.encloses s && (q.after s).encloses t) := by
  induction s generalizing q with
  | nil => simp [encloses]
  | cons g s ih => simp [encloses, ih, Bool.and_assoc]

end Quoting

/-- No comment starts inside of a string. -/
theorem Text.stripCommentFrom_of_encloses {q : Quoting} {t : Text} (h : q.encloses t = true)
    (rest seen : Text) :
    stripCommentFrom q (t ++ rest) seen =
      stripCommentFrom (q.after t) rest (t.reverse ++ seen) := by
  induction t generalizing q seen with
  | nil => rfl
  | cons g t ih =>
    simp only [Quoting.encloses, Bool.and_eq_true, decide_eq_true_eq] at h
    rw [List.cons_append, stripCommentFrom, if_neg fun hcomment => h.1 hcomment.1, ih h.2]
    simp

/-- No word ends inside of a string, and no parenthesis counts there. -/
theorem WordScan.foldl_of_encloses {s : WordScan} {cs : List Char}
    (h : s.quoting.encloses (cs.map .char) = true) :
    (cs.map Glyph.char).foldl step s =
      ⟨s.quoting.after (cs.map .char), s.depth, (cs.map .char).reverse ++ s.word, s.words⟩ := by
  induction cs generalizing s with
  | nil => rfl
  | cons c cs ih =>
    simp only [List.map_cons, Quoting.encloses, Bool.and_eq_true, decide_eq_true_eq] at h
    have hstep : s.step (.char c) =
        ⟨s.quoting.next c, s.depth, .char c :: s.word, s.words⟩ := by
      simp [step, separates, depthAfter, h.1]
    rw [List.map_cons, List.foldl_cons, hstep, ih h.2]
    simp

/-! ## Writing a literal -/

namespace StringLiteral

/-- How a character is written between quotes. -/
def escape : Char → List Char
  | '\\' => ['\\', '\\']
  | '"' => ['\\', '"']
  | '\n' => ['\\', 'n']
  | '\r' => ['\\', 'r']
  | '\t' => ['\\', 't']
  | '\x1b' => ['\\', 'e']
  | '\x00' => ['\\', '0']
  | c => [c]

/-- What stands between the quotes of the literal of a text, and the quote that ends it. -/
def closing (cs : List Char) : List Char := cs.flatMap escape ++ ['"']

/-- The literal of a text. -/
def quote (cs : List Char) : Text := ('"' :: closing cs).map .char

/-- A character is written behind a backslash that reading it removes, or as it is. -/
theorem escape_cases (c : Char) :
    (∃ e, escape c = ['\\', e] ∧ escaped? e = some c) ∨
      (escape c = [c] ∧ c ≠ '\\' ∧ c ≠ '"') := by
  unfold escape
  split
  case h_8 c hbackslash hquote _ _ _ _ _ => exact .inr ⟨rfl, hbackslash, hquote⟩
  all_goals exact .inl ⟨_, rfl, rfl⟩

theorem inside_escape (c : Char) :
    Quoting.inside.encloses ((escape c).map .char) = true ∧
      Quoting.inside.after ((escape c).map .char) = .inside := by
  rcases escape_cases c with ⟨e, he, -⟩ | ⟨hc, hbackslash, hquote⟩
  · rw [he]
    exact ⟨rfl, rfl⟩
  · rw [hc]
    simp [Quoting.encloses, Quoting.next, hbackslash, hquote]

/-- The literal goes on up to its last quote and ends with it. -/
theorem inside_closing (cs : List Char) :
    Quoting.inside.encloses ((closing cs).map .char) = true ∧
      Quoting.inside.after ((closing cs).map .char) = .outside := by
  induction cs with
  | nil => exact ⟨rfl, rfl⟩
  | cons c cs ih =>
    obtain ⟨henclosed, hafter⟩ := inside_escape c
    have hcons : closing (c :: cs) = escape c ++ closing cs := by simp [closing]
    rw [hcons, List.map_append, Quoting.encloses_append, Quoting.after_append, henclosed, hafter]
    exact ⟨ih.1, ih.2⟩

/-! ## Reading it back -/

theorem wordsFrom?_escape (c : Char) (rest : List Char) (seen : List UInt16) :
    wordsFrom? (escape c ++ rest) seen = wordsFrom? rest (wordOf c :: seen) := by
  rcases escape_cases c with ⟨e, he, hread⟩ | ⟨hc, hbackslash, hquote⟩
  · rw [he]
    simp [wordsFrom?, hread]
  · rw [hc]
    simp [wordsFrom?, hbackslash, hquote]

theorem wordsFrom?_flatMap_escape (cs : List Char) (seen : List UInt16) :
    wordsFrom? (cs.flatMap escape) seen = some (seen.reverse ++ cs.map wordOf) := by
  induction cs generalizing seen with
  | nil => simp [wordsFrom?]
  | cons c cs ih =>
    rw [List.flatMap_cons, wordsFrom?_escape, ih]
    simp

theorem words_quote (cs : List Char) : words (quote cs) = .ok (cs.map wordOf) := by
  have hbody : body? (quote cs) = some ((cs.flatMap escape).map .char) := by
    simp [quote, closing, body?]
  have hscalars : Text.scalars ((cs.flatMap escape).map .char) = cs.flatMap escape := by
    simp [Text.scalars, Function.comp_def]
  unfold words
  rw [hbody, Option.bind_some, hscalars, wordsFrom?_flatMap_escape]
  rfl

end StringLiteral

/-! ## The line of a string -/

section Line

open StringLiteral

/-- The text of a `.STRINGZ` statement, without a comment. -/
def stringzText (cs : List Char) : Text := (".STRINGZ " : Text) ++ quote cs

theorem stripComment_stringz (cs : List Char) (comment : Text) :
    Text.stripComment (stringzText cs ++ (" ;" : Text) ++ comment) = stringzText cs ++
      (" " : Text) := by
  have hopen : Text.stripComment (stringzText cs ++ (" ;" : Text) ++ comment) =
      Text.stripCommentFrom .inside ((closing cs).map .char ++ ((" ;" : Text) ++ comment))
        (".STRINGZ \"" : Text).reverse := by
    simp only [stringzText, quote, List.append_assoc]
    rfl
  rw [hopen, Text.stripCommentFrom_of_encloses (inside_closing cs).1, (inside_closing cs).2]
  -- the semicolon behind the closing quote is the first one outside
  have hend : ∀ seen, Text.stripCommentFrom .outside ((" ;" : Text) ++ comment) seen =
      seen.reverse ++ (" " : Text) := fun seen => List.reverse_cons
  rw [hend, List.reverse_append, List.reverse_reverse, List.reverse_reverse]
  rfl

theorem trim_stringz (cs : List Char) :
    Text.trim (stringzText cs ++ (" " : Text)) = stringzText cs := by
  have hlast : (stringzText cs).getLast? = some (.char '"') := by
    simp [stringzText, quote, closing, List.getLast?_cons]
  refine Text.trim_append (fun g hg => ?_) (fun g hg => ?_) (by decide)
  · cases hg
    decide
  · rw [hlast] at hg
    cases hg
    decide

theorem splitLabel?_stringz (cs : List Char) : Text.splitLabel? (stringzText cs) = none := by
  have hquote : (stringzText cs).dropWhile Text.isLabelGlyph = quote cs :=
    List.dropWhile_append_of_pos (by decide)
  unfold Text.splitLabel?
  rw [hquote]
  rfl

theorem words_stringz (cs : List Char) : Text.words (stringzText cs) =
    [(".STRINGZ" : Text), quote cs] := by
  have hopen : (stringzText cs).foldl WordScan.step WordScan.start =
      ((closing cs).map Glyph.char).foldl WordScan.step
        ⟨.inside, 0, ['"'].map .char, [".STRINGZ"]⟩ :=
    rfl
  unfold Text.words
  rw [hopen, WordScan.foldl_of_encloses (inside_closing cs).1, (inside_closing cs).2]
  simp [WordScan.finish, WordScan.flush, quote]

theorem ofLine_stringz (implicitLabels : Bool) (number : Int) (cs : List Char) (comment : Text) :
    Statement.ofLine implicitLabels ⟨number, stringzText cs ++ (" ;" : Text) ++ comment⟩ =
      .ok (some ⟨⟨number, stringzText cs ++ (" ;" : Text) ++ comment⟩, none,
        .keyword .stringz, [quote cs]⟩) := by
  have hkeyword : Mnemonic.ofWord? ".STRINGZ" = some .stringz := by decide +kernel
  have hnonempty : (stringzText cs).isEmpty = false := rfl
  unfold Statement.ofLine
  simp only [stripComment_stringz, trim_stringz, hnonempty, Bool.false_eq_true, if_false,
    splitLabel?_stringz, words_stringz, Statement.ofWords, hkeyword]
  rfl

end Line

/-- A string literal survives the front end. Whatever characters a literal holds and whatever the
comment behind it says, the line of a `.STRINGZ` gives one statement, whose operand is the literal.
The statement is encoded as the code points modulo 2^16 with a zero behind them, and its size is the
bytes of these words. -/
theorem string_survives_line [Interpreter] (implicitLabels : Bool) (number : Int) (cs : List Char)
    (comment : Text) :
    let line : SourceLine :=
      ⟨number, (".STRINGZ " : Text) ++ StringLiteral.quote cs ++ (" ;" : Text) ++ comment⟩
    let s : Statement := ⟨line, none, .keyword .stringz, [StringLiteral.quote cs]⟩
    Listing.ofLines implicitLabels [line] = ⟨[s], none⟩ ∧
    ∀ scope : Scope,
      (∃ words, scope.words s = .ok words ∧
        words.map UInt16.toNat = cs.map (fun c => c.toNat % 0x10000) ++ [0]) ∧
      scope.size s = .ok (2 * (cs.length + 1)) := by
  intro line s
  have hwords : s.stringWords = .ok (cs.map StringLiteral.wordOf) := StringLiteral.words_quote cs
  refine ⟨?_, fun scope => ⟨⟨cs.map StringLiteral.wordOf ++ [0], ?_, ?_⟩, ?_⟩⟩
  · exact Listing.ofLines_next (ofLine_stringz implicitLabels number cs comment) rfl
  · show (do return (← s.stringWords) ++ [0] : Except Fault (List UInt16)) = _
    rw [hwords]
    rfl
  · simp [StringLiteral.wordOf]
  · show (fun ws => wordSize * (ws.length + 1)) <$> s.stringWords = _
    rw [hwords]
    simp [wordSize, Functor.map, Except.map]

end LittleComputer
