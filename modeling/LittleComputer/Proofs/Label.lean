import LittleComputer.Proofs.Outcome
import LittleComputer.Proofs.UpperCase
import LittleComputer.Source.Statement

/-!
# Labels of a listing

A statement of a listing comes from one of the lines. Its label, if it has one, is the name of an
identifier, and such a name is its own upper-case form. So two labels are the same symbol only if
they are the same text.
-/

namespace LittleComputer

open Outcome

namespace Glyph

theorem continues_of_starts {g : Glyph} (h : g.startsIdentifier = true) :
    g.continuesIdentifier = true := by
  cases g with
  | char c =>
    simp only [startsIdentifier, continuesIdentifier, Char.isAlphanum, Bool.or_eq_true] at h ⊢
    rcases h with h | h
    · exact .inl (.inl h)
    · exact .inr h
  | stray b => exact h

theorem ascii_of_continues {g : Glyph} (h : g.continuesIdentifier = true) :
    g.scalar.toNat < 128 := by
  cases g with
  | char c =>
    change (((decide (c.val ≥ 65 ∧ c.val ≤ 90) ||
      (decide (c.val ≥ 97) && decide (c.val ≤ 122))) ||
      (decide (c.val ≥ 48) && decide (c.val ≤ 57))) || c == '_') = true at h
    simp only [Bool.or_eq_true, Bool.and_eq_true, decide_eq_true_eq, beq_iff_eq,
      UInt32.le_iff_toNat_le] at h
    change ((65 ≤ c.toNat ∧ c.toNat ≤ 90 ∨ 97 ≤ c.toNat ∧ c.toNat ≤ 122) ∨
      48 ≤ c.toNat ∧ c.toNat ≤ 57) ∨ c = '_' at h
    change c.toNat < 128
    rcases h with h | rfl
    · omega
    · decide
  | stray b => cases h

end Glyph

namespace Text

variable {word name : Text}

theorem continues_of_isIdentifier (h : word.isIdentifier = true) :
    ∀ g ∈ word, g.continuesIdentifier = true := by
  cases word with
  | nil => nofun
  | cons first rest =>
    obtain ⟨hfirst, hrest⟩ := Bool.and_eq_true_iff.mp h
    intro g hg
    rcases List.mem_cons.mp hg with rfl | hg
    · exact Glyph.continues_of_starts hfirst
    · exact List.all_eq_true.mp hrest g hg

/-- What a word that is accepted as a label is, and what its name is. -/
theorem labelName_eq_ok : word.labelName = .ok name ↔
    word.isIdentifier = true ∧ Mnemonic.ofWord? word = none ∧ Register.ofWord? word = none ∧
      name = word.upper := by
  unfold labelName
  split
  · rename_i h
    simp only [Bool.and_eq_true, Option.isNone_iff_eq_none] at h
    simp [h, eq_comm]
  · rename_i h
    simp only [Bool.and_eq_true, Option.isNone_iff_eq_none] at h
    simp only [reduceCtorEq, false_iff]
    rintro ⟨hword, hmnemonic, hregister, -⟩
    exact h ⟨⟨hword, hmnemonic⟩, hregister⟩

/-- The name of a label is its own upper-case form. -/
theorem upper_of_labelName (h : word.labelName = .ok name) : (name.upper : Text) = name := by
  obtain ⟨-, -, -, rfl⟩ := labelName_eq_ok.mp h
  rw [upper_upper]

end Text

namespace Statement

variable {implicitLabels : Bool} {line : SourceLine} {label : Option Text} {words : List Text}
  {s : Statement}

/-- The three ways in which words make a statement: there are none, the first is a keyword, or it is
a label and the second is a keyword. -/
theorem cases_of_ofWords (h : ofWords implicitLabels line label words = .ok s) :
    (words = [] ∧ s = ⟨line, label, .empty, []⟩) ∨
    (∃ word m, words = word :: s.operands ∧ Mnemonic.ofWord? word = some m ∧
      s = ⟨line, label, .keyword m, s.operands⟩) ∨
    ∃ word second m name, words = word :: second :: s.operands ∧
      Mnemonic.ofWord? second = some m ∧
      word.labelName = .ok name ∧ s = ⟨line, some name, .keyword m, s.operands⟩ := by
  unfold ofWords at h
  split at h
  · cases h
    exact .inl ⟨rfl, rfl⟩
  · split at h
    · rename_i m hm
      cases h
      exact .inr (.inl ⟨_, m, rfl, hm, rfl⟩)
    · split at h
      · split at h
        · rename_i m hm
          obtain ⟨name, hname, h⟩ := bind_eq_ok.mp h
          cases h
          exact .inr (.inr ⟨_, _, m, name, rfl, hm, hname, rfl⟩)
        · cases h
      · cases h

/-- A statement is made of the words of a text, behind a label that was accepted if there is one.
The text is the line without its comment, or what the label was split off from. -/
theorem words_of_ofLine (h : ofLine implicitLabels line = .ok (some s)) :
    ∃ (label : Option Text) (text : Text),
      (∀ name ∈ label, ∃ word, Text.labelName word = .ok name) ∧
      (text = line.text.stripComment.trim ∨
        ∃ before, line.text.stripComment.trim.splitLabel? = some (before, text)) ∧
      ofWords implicitLabels line label text.words = .ok s := by
  unfold ofLine at h
  simp only at h
  split at h
  · cases h
  · split at h
    · rename_i before text hsplit
      obtain ⟨name, hname, h⟩ := bind_eq_ok.mp h
      obtain ⟨s', hs', h⟩ := map_eq_ok.mp h
      cases h
      refine ⟨some name, text, ?_, .inr ⟨before, hsplit⟩, hs'⟩
      rintro _ ⟨⟩
      exact ⟨_, hname⟩
    · obtain ⟨s', hs', h⟩ := map_eq_ok.mp h
      cases h
      exact ⟨none, _, by rintro _ ⟨⟩, .inl rfl, hs'⟩

/-- The label of a statement was accepted as one. -/
theorem labelName_of_ofLine (h : ofLine implicitLabels line = .ok (some s)) :
    ∀ name, s.label = some name → ∃ word, Text.labelName word = .ok name := by
  obtain ⟨label, text, hlabel, -, hwords⟩ := words_of_ofLine h
  obtain ⟨-, hs⟩ | ⟨_, _, -, -, hs⟩ | ⟨word, _, _, name, -, -, hname, hs⟩ :=
    cases_of_ofWords hwords
  · rw [hs]
    exact hlabel
  · rw [hs]
    exact hlabel
  · rw [hs]
    rintro _ ⟨⟩
    exact ⟨word, hname⟩

theorem line_of_ofLine (h : ofLine implicitLabels line = .ok (some s)) : s.line = line := by
  obtain ⟨label, text, -, -, hwords⟩ := words_of_ofLine h
  obtain ⟨-, hs⟩ | ⟨_, _, -, -, hs⟩ | ⟨_, _, _, _, -, -, -, hs⟩ :=
    cases_of_ofWords hwords
  · rw [hs]
  · rw [hs]
  · rw [hs]

end Statement

namespace Listing

theorem mem_ofLinesFrom {implicitLabels : Bool} {lines : List SourceLine} {seen : List Statement}
    {s : Statement} (h : s ∈ (ofLinesFrom implicitLabels lines seen).statements) :
    s ∈ seen ∨ ∃ line ∈ lines, Statement.ofLine implicitLabels line = .ok (some s) := by
  induction lines generalizing seen with
  | nil => exact .inl (List.mem_reverse.mp h)
  | cons line rest ih =>
    unfold ofLinesFrom at h
    split at h
    · exact .inl (List.mem_reverse.mp h)
    · rcases ih h with hseen | ⟨l, hl, hs⟩
      · exact .inl hseen
      · exact .inr ⟨l, List.mem_cons_of_mem line hl, hs⟩
    · rename_i found hfound
      have hhead : s ∈ found :: seen → s ∈ seen ∨
          ∃ l ∈ line :: rest, Statement.ofLine implicitLabels l = .ok (some s) := by
        intro hs
        rcases List.mem_cons.mp hs with rfl | hseen
        · exact .inr ⟨line, List.mem_cons_self, hfound⟩
        · exact .inl hseen
      split at h
      · exact hhead (List.mem_reverse.mp h)
      · rcases ih h with hs | ⟨l, hl, hs⟩
        · exact hhead hs
        · exact .inr ⟨l, List.mem_cons_of_mem line hl, hs⟩

/-- Every statement of a listing is the statement of one of its lines. -/
theorem mem_ofLines {implicitLabels : Bool} {lines : List SourceLine} {s : Statement}
    (h : s ∈ (ofLines implicitLabels lines).statements) :
    ∃ line ∈ lines, Statement.ofLine implicitLabels line = .ok (some s) := by
  rcases mem_ofLinesFrom h with hnil | hline
  · cases hnil
  · exact hline

theorem upper_label {implicitLabels : Bool} {lines : List SourceLine} {s : Statement}
    (h : s ∈ (ofLines implicitLabels lines).statements) {name : Text}
    (hname : s.label = some name) :
    (name.upper : Text) = name := by
  obtain ⟨line, -, hs⟩ := mem_ofLines h
  obtain ⟨word, hword⟩ := Statement.labelName_of_ofLine hs name hname
  exact Text.upper_of_labelName hword

end Listing

end LittleComputer
