import LittleComputer.Assembler
import LittleComputer.Proofs.NumberGrammar
import LittleComputer.Proofs.Outcome

/-!
# Literals out of range

A literal has to pass two limits: it is read only if it denotes an integer of 64 bits, and it is
packed only if its field holds the integer. Only the second one is told as what it is. A literal
beyond the first counts as no literal at all, so it is an invalid immediate, or a label that was not
defined where a label could stand and it looks like one: the literals that look like labels are the
digits right behind an `x`.
-/

namespace LittleComputer

/-! ## Literals that look like labels -/

namespace Glyph

variable {base d : Nat} {g : Glyph}

theorem Writes.mem (h : g.Writes base d) :
    ∃ c, g = .char c ∧ (c ∈ lowerDigits.take base ∨ c ∈ upperDigits.take base) := by
  obtain ⟨hd, c, rfl, hc | hc⟩ := h
  · refine ⟨c, rfl, .inl (List.mem_of_getElem? (i := d) ?_)⟩
    rw [List.getElem?_take_of_lt hd, hc]
  · refine ⟨c, rfl, .inr (List.mem_of_getElem? (i := d) ?_)⟩
    rw [List.getElem?_take_of_lt hd, hc]

theorem Writes.continuesIdentifier (h : g.Writes base d) : g.continuesIdentifier = true := by
  have hlower : lowerDigits.all fun c => (char c).continuesIdentifier := by decide
  have hupper : upperDigits.all fun c => (char c).continuesIdentifier := by decide
  obtain ⟨c, rfl, hc | hc⟩ := h.mem
  · exact List.all_eq_true.mp hlower c (List.mem_of_mem_take hc)
  · exact List.all_eq_true.mp hupper c (List.mem_of_mem_take hc)

theorem Writes.startsIdentifier (h : g.Writes 10 d) : g.startsIdentifier = false := by
  have hlower : (lowerDigits.take 10).all fun c => !(char c).startsIdentifier := by decide
  have hupper : (upperDigits.take 10).all fun c => !(char c).startsIdentifier := by decide
  obtain ⟨c, rfl, hc | hc⟩ := h.mem
  · exact (Bool.not_eq_true' _).mp (List.all_eq_true.mp hlower c hc)
  · exact (Bool.not_eq_true' _).mp (List.all_eq_true.mp hupper c hc)

end Glyph

namespace Text

variable {word : Text} {v : Int}

theorem Digits.continuesIdentifier {base n : Nat} {t : Text} (h : Digits base t n) :
    t.all Glyph.continuesIdentifier = true := by
  apply List.all_eq_true.mpr
  intro g hg
  obtain ⟨d, hd⟩ := h.writes g hg
  exact hd.continuesIdentifier

/-- A literal without a mark starts with a sign or a decimal digit. -/
theorem not_isIdentifier_of_decimal (sign : Sign) {digits : Text} {n : Nat}
    (h : Digits 10 digits n) :
    (sign.text ++ digits).isIdentifier = false := by
  cases sign with
  | plus => rfl
  | minus => rfl
  | missing =>
    obtain ⟨g, rest, rfl⟩ := List.exists_cons_of_ne_nil h.ne_nil
    obtain ⟨d, hd⟩ := h.writes g List.mem_cons_self
    simp [Sign.text, isIdentifier, hd.startsIdentifier]

theorem Denotes.isIdentifier_iff (h : word.Denotes v) :
    word.isIdentifier = true ↔
      ∃ (mark digits : Text) (n : Nat), mark ∈ [("x" : Text), ("X" : Text)] ∧
        Digits 16 digits n ∧
        word = mark ++ digits := by
  constructor
  · intro hidentifier
    cases h with
    | @literal mark digits base n sign hmark hdigits =>
      rw [List.append_assoc] at hidentifier ⊢
      have hunsigned : ∀ c : Char, isIdentifier (.char c :: (sign.text ++ digits)) = true →
          sign.text = [] := by
        intro c hc
        cases sign with
        | missing => rfl
        | plus => simp [isIdentifier, Sign.text, Glyph.continuesIdentifier, ofString] at hc
        | minus => simp [isIdentifier, Sign.text, Glyph.continuesIdentifier, ofString] at hc
      simp only [baseMarks, List.mem_cons, Prod.mk.injEq, List.not_mem_nil, or_false] at hmark
      rcases hmark with ⟨rfl, rfl⟩ | ⟨rfl, rfl⟩ | ⟨rfl, rfl⟩ | ⟨rfl, rfl⟩ |
        ⟨rfl, rfl⟩ | ⟨rfl, rfl⟩
      · cases (not_isIdentifier_of_decimal sign hdigits).symm.trans hidentifier
      · cases hidentifier
      · rw [hunsigned 'x' hidentifier]
        exact ⟨"x", digits, n, by decide, hdigits, rfl⟩
      · rw [hunsigned 'X' hidentifier]
        exact ⟨"X", digits, n, by decide, hdigits, rfl⟩
      · cases hidentifier
      · cases hidentifier
  · rintro ⟨mark, digits, n, hmark, hdigits, rfl⟩
    simp only [List.mem_cons, List.not_mem_nil, or_false] at hmark
    rcases hmark with rfl | rfl
    · exact hdigits.continuesIdentifier
    · exact hdigits.continuesIdentifier

/-- A literal is no expression. -/
theorem Denotes.ne_expression (h : word.Denotes v) (body : Text) :
    word ≠ ("$(" : Text) ++ body ++ (")" : Text) := by
  rintro rfl
  have hnone : denoted? (("$(" : Text) ++ body ++ (")" : Text)) = none := rfl
  rw [denoted?_eq_some.mpr h] at hnone
  cases hnone

/-- What is told of a word that is read as no number where a label could stand. -/
def unreadFault (word : Text) : Fault :=
  if word.isIdentifier then .undefinedLabel word.upper else .invalidImmediate word

end Text

/-! ## What becomes of them -/

namespace Scope

variable [Interpreter] {scope : Scope} {word : Text} {v : Int} {f : Field}

/-- A literal is read if it denotes an integer of 64 bits. -/
theorem number_of_denotes (h : word.Denotes v) :
    scope.number word = if fitsInt64 v then .ok v else .error (.invalidImmediate word) := by
  rw [scope.number_eq_literal h.ne_expression]
  unfold Text.literal?
  rw [Text.denoted?_eq_some.mpr h]
  cases hfits : fitsInt64 v with
  | true => simp [Option.filter, hfits]
  | false => simp [Option.filter, hfits]

theorem immediate_of_denotes (h : word.Denotes v) (hrange : ¬ f.Accepts v) :
    scope.immediate f word =
      .error (if fitsInt64 v then .immediateRange v f.least f.greatest
        else .invalidImmediate word) := by
  unfold immediate
  rw [number_of_denotes h]
  cases fitsInt64 v with
  | true =>
    show f.pack v = _
    unfold Field.pack
    rw [if_neg hrange]
    rfl
  | false => rfl

/-- Where a label could stand, being out of range is told all the same, but not being read is told
another way. -/
theorem immediateOrLabel_of_denotes (h : word.Denotes v) (hrange : ¬ f.Accepts v) :
    scope.immediateOrLabel f word =
      .error (if fitsInt64 v then .immediateRange v f.least f.greatest else word.unreadFault) := by
  unfold immediateOrLabel
  rw [immediate_of_denotes h hrange]
  cases fitsInt64 v with
  | true => rfl
  | false =>
    show (if word.isIdentifier then _ else _) = _
    unfold Text.unreadFault
    cases word.isIdentifier with
    | true => rfl
    | false => rfl

end Scope

/-- A literal out of range is told to be so as long as it denotes an integer of 64 bits. Where a
number stands that is no symbol and that the field does not hold, the fault is its range, with the
integer and both ends of the field, exactly if the integer has 64 bits. A literal of more bits is an
invalid immediate. In place of an offset or a word it is an undefined label if it looks like one,
and the literals that do are the hexadecimal digits right behind an `x` in either case. -/
theorem range_is_told_within_int64 [Interpreter] (scope : Scope) (word : Text) (v : Int)
    (hword : word.Denotes v)
    (hsymbol : scope.symbols.lookup? word = none) :
    let Fits := -0x8000000000000000 ≤ v ∧ v ≤ 0x7FFFFFFFFFFFFFFF
    let range (f : Field) : Fault := .immediateRange v f.least f.greatest
    (∀ f : Field, ¬ f.Accepts v →
      (Fits → scope.immediate f word = .error (range f)) ∧
      (¬ Fits → scope.immediate f word = .error (.invalidImmediate word))) ∧
    (∀ bits : Nat, ¬ (Field.signed bits).Accepts v →
      (Fits → scope.offset bits word = .error (range (Field.signed bits))) ∧
      (¬ Fits → scope.offset bits word = .error word.unreadFault)) ∧
    (¬ Field.word.Accepts v →
      (Fits → scope.word word = .error (range Field.word)) ∧
      (¬ Fits → scope.word word = .error word.unreadFault)) ∧
    (word.isIdentifier = true ↔ ∃ (mark digits : Text) (n : Nat),
      mark ∈ [("x" : Text), ("X" : Text)] ∧ Text.Digits 16 digits n ∧
        word = mark ++ digits) := by
  intro Fits range
  have hfits : Fits → fitsInt64 v = true := (fitsInt64_iff v).mpr
  have hbeyond : ¬ Fits → fitsInt64 v = false :=
    fun h => Bool.eq_false_iff.mpr (mt (fitsInt64_iff v).mp h)
  have hoffset (bits : Nat) : scope.offset bits word =
      scope.immediateOrLabel (Field.signed bits) word := by
    unfold Scope.offset
    rw [hsymbol]
  have hplace : scope.word word = UInt16.ofBitVec <$> scope.immediateOrLabel Field.word word := by
    unfold Scope.word
    rw [hsymbol]
  refine ⟨fun f hf => ⟨fun h => ?_, fun h => ?_⟩,
    fun bits hf => ⟨fun h => ?_, fun h => ?_⟩,
    fun hf => ⟨fun h => ?_, fun h => ?_⟩, hword.isIdentifier_iff⟩
  · rw [Scope.immediate_of_denotes hword hf, hfits h]
    rfl
  · rw [Scope.immediate_of_denotes hword hf, hbeyond h]
    rfl
  · rw [hoffset, Scope.immediateOrLabel_of_denotes hword hf, hfits h]
    rfl
  · rw [hoffset, Scope.immediateOrLabel_of_denotes hword hf, hbeyond h]
    rfl
  · rw [hplace, Scope.immediateOrLabel_of_denotes hword hf, hfits h]
    rfl
  · rw [hplace, Scope.immediateOrLabel_of_denotes hword hf, hbeyond h]
    rfl

/-- The least integer of 64 bits is told to be out of range, and the one below it is told to be no
number. -/
theorem range_is_told_within_int64_least :
    let scope : Scope := ⟨.empty, 0x3000, 1⟩
    Text.Denotes "#-9223372036854775808" (-0x8000000000000000) ∧
      scope.immediate (Field.signed 5) "#-9223372036854775808" =
        .error (.immediateRange (-0x8000000000000000) (-16) 15) ∧
      Text.Denotes "#-9223372036854775809" (-0x8000000000000001) ∧
      scope.immediate (Field.signed 5) "#-9223372036854775809" =
        .error (.invalidImmediate "#-9223372036854775809") := by
  intro scope
  have hleast : Text.Denotes "#-9223372036854775808" (-0x8000000000000000) :=
    Text.denoted?_eq_some.mp (by decide)
  have hbelow : Text.Denotes "#-9223372036854775809" (-0x8000000000000001) :=
    Text.denoted?_eq_some.mp (by decide)
  obtain ⟨htold, -⟩ := range_is_told_within_int64 scope _ _ hleast (by decide)
  obtain ⟨hunread, -⟩ := range_is_told_within_int64 scope _ _ hbelow (by decide)
  exact ⟨hleast, (htold (Field.signed 5) (by decide)).1 (by decide), hbelow,
    (hunread (Field.signed 5) (by decide)).2 (by decide)⟩

/-- A number that no word holds is told to be a label, in its scope and in a source, once it has 64
bits and no sign. -/
theorem range_is_not_told_beyond_int64 :
    let scope : Scope := ⟨.empty, 0x3000, 1⟩
    let word : Text := "x8000000000000000"
    word.Denotes 0x8000000000000000 ∧ scope.symbols.lookup? word = none ∧
      ¬ Field.word.Accepts 0x8000000000000000 ∧
      scope.word word = .error (.undefinedLabel "X8000000000000000") ∧
      (∀ v least greatest : Int,
        scope.word word ≠ .error (.immediateRange v least greatest)) ∧
      ∃ error, assembleText ".FILL x8000000000000000\n" = .error error ∧
        error = .located ⟨1, ".FILL x8000000000000000"⟩
          (.undefinedLabel "X8000000000000000") := by
  intro scope word
  have hword : word.Denotes 0x8000000000000000 := Text.denoted?_eq_some.mp (by decide)
  have hfault : scope.word word = .error (.undefinedLabel "X8000000000000000") := by
    obtain ⟨fault, hfault, rfl⟩ : ∃ fault, scope.word word = .error fault ∧
        fault = .undefinedLabel "X8000000000000000" := Outcome.exists_error_of_run (by decide)
    exact hfault
  refine ⟨hword, by decide, by decide, hfault, fun v least greatest => ?_, ?_⟩
  · rw [hfault]
    simp
  · exact Outcome.exists_error_of_run (by decide +kernel)

end LittleComputer
