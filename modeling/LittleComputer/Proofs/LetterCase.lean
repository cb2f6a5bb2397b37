import LittleComputer.Proofs.Respelling
import LittleComputer.Proofs.SideBySide
import LittleComputer.Proofs.UpperCase

/-!
# Letters in either case

Outside of strings and expressions a letter means the same in either case. Folding puts the letters
of ASCII in upper case, so two sources differ only in the case of such letters exactly if they fold
to the same. Each function between a line and its words is blind to folding, or it gives the folded
result of what it gives otherwise. That holds of faults too: a fault that quotes a word of the
source quotes it folded.
-/

namespace LittleComputer

open Outcome

/-! ## Characters -/

theorem toUpper_of_beyond {c : Char} (h : 128 ≤ c.toNat) : c.toUpper = c := by
  unfold Char.toUpper
  refine dif_neg fun hletter => ?_
  have hlast : c.toNat ≤ 122 := UInt32.le_iff_toNat_le.mp hletter.2
  omega

/-- Two characters that nothing tells apart where case does not count: neither the upper-case forms
of names nor blanks, digits, identifiers, the letter of a register and the mark of a base. Unless
they are the same, both are letters. -/
structure SameLetter (c d : Char) : Prop where
  upper : upperChar d = upperChar c
  blank : isBlank d = isBlank c
  digit : digitValue? d = digitValue? c
  alphanum : d.isAlphanum = c.isAlphanum
  register : d = 'R' ∨ d = 'r' ↔ c = 'R' ∨ c = 'r'
  hex : d = 'x' ∨ d = 'X' ↔ c = 'x' ∨ c = 'X'
  letter : d = c ∨ c.isAlpha = true ∧ d.isAlpha = true

instance (c d : Char) : Decidable (SameLetter c d) :=
  decidable_of_iff (upperChar d = upperChar c ∧ isBlank d = isBlank c ∧
    digitValue? d = digitValue? c ∧
      d.isAlphanum = c.isAlphanum ∧ (d = 'R' ∨ d = 'r' ↔ c = 'R' ∨ c = 'r') ∧
      (d = 'x' ∨ d = 'X' ↔ c = 'x' ∨ c = 'X') ∧
        (d = c ∨ c.isAlpha = true ∧ d.isAlpha = true))
    ⟨fun ⟨hupper, hblank, hdigit, halphanum, hregister, hhex, hletter⟩ =>
      ⟨hupper, hblank, hdigit, halphanum, hregister, hhex, hletter⟩,
    fun h => ⟨h.upper, h.blank, h.digit, h.alphanum, h.register, h.hex, h.letter⟩⟩

theorem sameLetter_toUpper (c : Char) : SameLetter c c.toUpper := by
  by_cases hc : c.toNat < 128
  · exact ascii_of_numbers (p := fun c => SameLetter c c.toUpper) (by decide +kernel) c hc
  · rw [toUpper_of_beyond (Nat.le_of_not_lt hc)]
    exact ⟨rfl, rfl, rfl, rfl, Iff.rfl, Iff.rfl, .inl rfl⟩

theorem isAlpha_toUpper (c : Char) : c.toUpper.isAlpha = c.isAlpha := by
  rcases (sameLetter_toUpper c).letter with hsame | ⟨hletter, hupper⟩
  · rw [hsame]
  · rw [hletter, hupper]

theorem le_of_isAlpha {c : Char} (h : c.isAlpha = true) : 65 ≤ c.toNat := by
  have hranges : (decide (c.val ≥ 65 ∧ c.val ≤ 90) ||
      decide (c.val ≥ 97) && decide (c.val ≤ 122)) =
      true := h
  simp only [Bool.or_eq_true, Bool.and_eq_true, decide_eq_true_eq, ge_iff_le,
    UInt32.le_iff_toNat_le] at hranges
  rcases hranges with ⟨hfirst, -⟩ | ⟨hfirst, -⟩
  · exact hfirst
  · exact Nat.le_trans (by decide) hfirst

theorem toUpper_eq_iff {c x : Char} (hx : x.isAlpha = false) : c.toUpper = x ↔ c = x := by
  rcases (sameLetter_toUpper c).letter with hsame | ⟨hletter, hupper⟩
  · rw [hsame]
  · constructor
    · intro h
      rw [h, hx] at hupper
      cases hupper
    · intro h
      rw [h, hx] at hletter
      cases hletter

theorem toUpper_beq {c x : Char} (hx : x.isAlpha = false) : (c.toUpper == x) = (c == x) := by
  rw [Bool.eq_iff_iff, beq_iff_eq, beq_iff_eq, toUpper_eq_iff hx]

/-! ## Texts -/

namespace Glyph

/-- The glyph with a letter of ASCII in upper case. -/
def folded : Glyph → Glyph
  | .char c => .char c.toUpper
  | .stray b => .stray b

theorem scalar_folded (g : Glyph) : g.folded.scalar = g.scalar.toUpper := by
  cases g with
  | char c => rfl
  | stray b => exact (show replacementChar.toUpper = replacementChar by decide).symm

theorem is_folded {x : Char} (hx : x.isAlpha = false) (g : Glyph) : g.folded.is x = g.is x := by
  cases g with
  | char c =>
    rw [Bool.eq_iff_iff, is_iff, is_iff]
    simp only [folded, Glyph.char.injEq, toUpper_eq_iff hx]
  | stray b => rfl

theorem folded_eq_char {x : Char} (hx : x.isAlpha = false) (g : Glyph) :
    g.folded = .char x ↔ g = .char x := by
  rw [← is_iff, ← is_iff, is_folded hx]

theorem isBlank_folded (g : Glyph) : g.folded.isBlank = g.isBlank := by
  unfold isBlank
  rw [scalar_folded, (sameLetter_toUpper g.scalar).blank]

theorem digit?_folded (base : Nat) (g : Glyph) : g.folded.digit? base = g.digit? base := by
  unfold digit?
  rw [scalar_folded, (sameLetter_toUpper g.scalar).digit]

theorem startsIdentifier_folded (g : Glyph) : g.folded.startsIdentifier = g.startsIdentifier := by
  cases g with
  | char c =>
    show (c.toUpper.isAlpha || c.toUpper == '_') = (c.isAlpha || c == '_')
    rw [isAlpha_toUpper, toUpper_beq rfl]
  | stray b => rfl

theorem continuesIdentifier_folded (g : Glyph) :
    g.folded.continuesIdentifier = g.continuesIdentifier := by
  cases g with
  | char c =>
    show (c.toUpper.isAlphanum || c.toUpper == '_') = (c.isAlphanum || c == '_')
    rw [(sameLetter_toUpper c).alphanum, toUpper_beq rfl]
  | stray b => rfl

end Glyph

/-- Quotes and backslashes are no letters. -/
theorem Quoting.next_toUpper (q : Quoting) (c : Char) : q.next c.toUpper = q.next c := by
  cases q with
  | outside => simp (disch := decide) only [next, toUpper_eq_iff]
  | inside => simp (disch := decide) only [next, toUpper_eq_iff]
  | escaped => rfl

namespace Text

def folded (t : Text) : Text := t.map Glyph.folded

theorem folded_cons (g : Glyph) (t : Text) : folded (g :: t) = g.folded :: t.folded := rfl

theorem upper_folded (t : Text) : t.folded.upper = t.upper := by
  unfold upper
  congr 1
  simp only [scalars, folded, List.map_map]
  refine List.map_congr_left fun g _ => ?_
  simp only [Function.comp_apply, Glyph.scalar_folded, (sameLetter_toUpper g.scalar).upper]

theorem trim_folded (t : Text) : t.folded.trim = t.trim.folded := by
  have hblank : Glyph.isBlank ∘ Glyph.folded = Glyph.isBlank := funext Glyph.isBlank_folded
  unfold trim folded
  rw [List.dropWhile_map, ← List.map_reverse, List.dropWhile_map, ← List.map_reverse, hblank]

theorem stripCommentFrom_folded (q : Quoting) (t seen : Text) :
    stripCommentFrom q t.folded seen.folded = (stripCommentFrom q t seen).folded := by
  induction t generalizing q seen with
  | nil => exact (List.map_reverse (f := Glyph.folded)).symm
  | cons g rest ih =>
    rw [folded_cons, stripCommentFrom, stripCommentFrom, Glyph.scalar_folded, Quoting.next_toUpper]
    simp (disch := decide) only [Glyph.folded_eq_char]
    split
    · exact (List.map_reverse (f := Glyph.folded)).symm
    · exact ih _ (g :: seen)

theorem stripComment_folded (t : Text) : t.folded.stripComment = t.stripComment.folded :=
  stripCommentFrom_folded .outside t []

theorem splitLabel?_folded (t : Text) :
    t.folded.splitLabel? = t.splitLabel?.map fun parts => (parts.1.folded, parts.2.folded) := by
  have hlabel : isLabelGlyph ∘ Glyph.folded = isLabelGlyph := by
    funext g
    simp (disch := decide) only [Function.comp_apply, isLabelGlyph, Glyph.is_folded]
  have hdrop : t.folded.dropWhile isLabelGlyph = folded (t.dropWhile isLabelGlyph) := by
    unfold folded
    rw [List.dropWhile_map, hlabel]
  have htake : t.folded.takeWhile isLabelGlyph = folded (t.takeWhile isLabelGlyph) := by
    unfold folded
    rw [List.takeWhile_map, hlabel]
  unfold splitLabel?
  rw [hdrop, htake, trim_folded]
  cases t.dropWhile isLabelGlyph with
  | nil => rfl
  | cons g rest =>
    rw [folded_cons]
    simp (disch := decide) only [Glyph.is_folded, trim_folded]
    split
    · rfl
    · rfl

end Text

namespace WordScan

def folded (s : WordScan) : WordScan :=
  ⟨s.quoting, s.depth, s.word.folded, s.words.map Text.folded⟩

theorem flush_folded (s : WordScan) : s.folded.flush = s.flush.folded := by
  have hempty : s.folded.word.isEmpty = s.word.isEmpty := List.isEmpty_map
  unfold flush
  rw [hempty]
  split
  · rfl
  · simp [folded, Text.folded]

theorem step_folded (s : WordScan) (g : Glyph) : s.folded.step g.folded = (s.step g).folded := by
  have hseparates : s.folded.separates g.scalar.toUpper = s.separates g.scalar := by
    simp (disch := decide) only
      [separates, folded, toUpper_beq, (sameLetter_toUpper g.scalar).blank]
  have hdepth : s.folded.depthAfter g.scalar.toUpper = s.depthAfter g.scalar := by
    simp (disch := decide) only [depthAfter, folded, toUpper_eq_iff]
  unfold step
  simp only [Glyph.scalar_folded, hseparates, hdepth, flush_folded]
  split
  · rfl
  · simp only [folded, Quoting.next_toUpper]
    rfl

theorem foldl_folded (t : Text) (s : WordScan) :
    t.folded.foldl step s.folded = (t.foldl step s).folded := by
  induction t generalizing s with
  | nil => rfl
  | cons g rest ih =>
    rw [Text.folded_cons, List.foldl_cons, List.foldl_cons, step_folded, ih]

end WordScan

theorem Text.words_folded (t : Text) : t.folded.words = t.words.map Text.folded := by
  have hscan : t.folded.foldl WordScan.step .start = (t.foldl WordScan.step .start).folded :=
    WordScan.foldl_folded t .start
  unfold Text.words WordScan.finish
  rw [hscan, WordScan.flush_folded]
  exact List.map_reverse.symm

/-! ## Words -/

/-- The fault with the word that it quotes folded. -/
def Fault.folded : Fault → Fault
  | .invalidLabel word => .invalidLabel word.folded
  | .invalidRegister word => .invalidRegister word.folded
  | .invalidImmediate word => .invalidImmediate word.folded
  | fault => fault

theorem Mnemonic.ofWord?_folded (word : Text) : ofWord? word.folded = ofWord? word := by
  unfold ofWord?
  rw [Text.upper_folded]

theorem Register.ofWord?_folded (word : Text) : ofWord? word.folded = ofWord? word := by
  match word with
  | [] => rfl
  | [.char _] => rfl
  | [.stray _] => rfl
  | [.stray _, _] => rfl
  | [.char _, .stray _] => rfl
  | .stray _ :: _ :: _ :: _ => rfl
  | .char _ :: .stray _ :: _ :: _ => rfl
  | .char _ :: .char _ :: _ :: _ => rfl
  | [.char r, .char d] =>
    show ofWord? [.char r.toUpper, .char d.toUpper] = ofWord? [.char r, .char d]
    simp only [ofWord?, (sameLetter_toUpper r).register]
    rcases (sameLetter_toUpper d).letter with hsame | ⟨hletter, hupper⟩
    · rw [hsame]
    · have hd := le_of_isAlpha hletter
      have hd' := le_of_isAlpha hupper
      rw [if_neg (by omega), if_neg (by omega)]

namespace Text

theorem isIdentifier_folded (word : Text) : word.folded.isIdentifier = word.isIdentifier := by
  cases word with
  | nil => rfl
  | cons g rest =>
    have hrest : Glyph.continuesIdentifier ∘ Glyph.folded = Glyph.continuesIdentifier :=
      funext Glyph.continuesIdentifier_folded
    have hcons : folded (g :: rest) = g.folded :: rest.map Glyph.folded := rfl
    simp only [hcons, isIdentifier, Glyph.startsIdentifier_folded, List.all_map, hrest]

theorem labelName_folded (word : Text) :
    word.folded.labelName = word.labelName.mapError Fault.folded := by
  unfold labelName
  rw [isIdentifier_folded, Mnemonic.ofWord?_folded, Register.ofWord?_folded, upper_folded]
  split
  · rfl
  · rfl

theorem startsRegister_folded (word : Text) : word.folded.startsRegister = word.startsRegister := by
  match word with
  | [] => rfl
  | .stray _ :: _ => rfl
  | .char c :: rest =>
    show ((Glyph.char c.toUpper).is 'R' || (Glyph.char c.toUpper).is 'r') =
      ((Glyph.char c).is 'R' || (Glyph.char c).is 'r')
    rw [Bool.eq_iff_iff, Bool.or_eq_true, Bool.or_eq_true]
    simp only [Glyph.is_iff, Glyph.char.injEq]
    exact (sameLetter_toUpper c).register

theorem naturalFrom?_folded (base : Nat) (t : Text) (value : Nat) :
    naturalFrom? base t.folded value = naturalFrom? base t value := by
  induction t generalizing value with
  | nil => rfl
  | cons g rest ih =>
    rw [folded_cons, naturalFrom?, naturalFrom?, Glyph.digit?_folded]
    split
    · exact ih _
    · rfl

theorem natural?_folded (base : Nat) (t : Text) : natural? base t.folded = natural? base t := by
  have hempty : t.folded.isEmpty = t.isEmpty := List.isEmpty_map
  unfold natural?
  rw [hempty, naturalFrom?_folded]

theorem integer?_folded (base : Nat) (t : Text) : integer? base t.folded = integer? base t := by
  cases t with
  | nil => rfl
  | cons g rest =>
    have hwhole : natural? base (g.folded :: folded rest) = natural? base (g :: rest) :=
      natural?_folded base (g :: rest)
    rw [folded_cons, integer?, integer?]
    simp (disch := decide) only [Glyph.is_folded, natural?_folded, hwhole]

/-- A character that starts no mark of a base. -/
theorem splitBase_of_unmarked {c : Char} (rest : Text) (hmark : c ≠ '#') (hzero : c ≠ '0')
    (hhex : c ≠ 'x' ∧ c ≠ 'X') : splitBase (.char c :: rest) = (10, .char c :: rest) := by
  unfold splitBase
  split
  all_goals simp_all

theorem splitBase_of_zero (t : Text)
    (h : ∀ rest, t ≠ .char 'x' :: rest ∧ t ≠ .char 'X' :: rest) :
    splitBase (.char '0' :: t) = (10, .char '0' :: t) := by
  unfold splitBase
  split
  all_goals simp_all

/-- The mark of a base is told in either case. -/
theorem splitBase_folded (word : Text) :
    word.folded.splitBase = (word.splitBase.1, word.splitBase.2.folded) := by
  match word with
  | [] => rfl
  | .stray _ :: _ => rfl
  | .char c :: t =>
    by_cases hmark : c = '#'
    · subst hmark
      rfl
    by_cases hx : c = 'x' ∨ c = 'X'
    · rcases hx with rfl | rfl
      · rfl
      · rfl
    by_cases hzero : c = '0'
    · subst hzero
      match t with
      | [] => rfl
      | .stray _ :: _ => rfl
      | .char d :: rest =>
        by_cases hd : d = 'x' ∨ d = 'X'
        · rcases hd with rfl | rfl
          · rfl
          · rfl
        · have hd' := mt (sameLetter_toUpper d).hex.mp hd
          rw [not_or] at hd hd'
          have hplain := splitBase_of_zero (.char d :: rest) (by simp [hd])
          have hfolded :=
            splitBase_of_zero (folded (.char d :: rest)) (by simp [folded, Glyph.folded, hd'])
          rw [hplain]
          exact hfolded
    · have hx' := mt (sameLetter_toUpper c).hex.mp hx
      rw [not_or] at hx hx'
      have hmark' : c.toUpper ≠ '#' := mt (toUpper_eq_iff rfl).mp hmark
      have hzero' : c.toUpper ≠ '0' := mt (toUpper_eq_iff rfl).mp hzero
      rw [splitBase_of_unmarked t hmark hzero hx]
      exact splitBase_of_unmarked (folded t) hmark' hzero' hx'

theorem literal?_folded (word : Text) : word.folded.literal? = word.literal? := by
  unfold literal? denoted?
  rw [splitBase_folded, integer?_folded]

end Text

/-! ## Lines -/

/-- Neither a string nor an expression starts in the text. -/
def Text.IsBare (t : Text) : Prop := .char '"' ∉ t ∧ .char '(' ∉ t

instance (t : Text) : Decidable t.IsBare := inferInstanceAs (Decidable (_ ∧ _))

theorem Text.isBare_folded (t : Text) : t.folded.IsBare ↔ t.IsBare := by
  have hmem : ∀ {x : Char}, x.isAlpha = false →
      (Glyph.char x ∈ t.folded ↔ Glyph.char x ∈ t) := by
    intro x hx
    simp only [folded, List.mem_map, Glyph.folded_eq_char hx, exists_eq_right]
  unfold IsBare
  rw [hmem rfl, hmem rfl]

def SourceLine.folded (line : SourceLine) : SourceLine := ⟨line.number, line.text.folded⟩

theorem respelling_folded : Respelling Text.folded Fault.folded where
  empty := fun _ => List.isEmpty_map
  splitLabel := Text.splitLabel?_folded
  words := Text.words_folded
  upper := Text.upper_folded
  labelName := Text.labelName_folded
  unknown := fun _ => rfl

/-- A folded line has the folded statement. -/
theorem Statement.ofLine_folded (implicitLabels : Bool) (line : SourceLine) :
    ofLine implicitLabels line.folded =
      (Option.map (respelled Text.folded line.folded) <$> ofLine implicitLabels line).mapError
        Fault.folded := by
  refine respelling_folded.ofLine implicitLabels ?_
  rw [← Text.trim_folded, ← Text.stripComment_folded]
  rfl

/-! ## Operands come from their line -/

namespace WordScan

variable {p : Glyph → Prop} {s : WordScan}

/-- The glyphs of all words so far are such. -/
structure AllGlyphs (p : Glyph → Prop) (s : WordScan) : Prop where
  word : ∀ g ∈ s.word, p g
  words : ∀ w ∈ s.words, ∀ g ∈ w, p g

theorem AllGlyphs.flush (h : s.AllGlyphs p) : s.flush.AllGlyphs p := by
  unfold WordScan.flush
  split
  · exact h
  · refine ⟨nofun, fun w hw g hg => ?_⟩
    rcases List.mem_cons.mp hw with rfl | hw
    · exact h.word g (List.mem_reverse.mp hg)
    · exact h.words w hw g hg

theorem AllGlyphs.step (h : s.AllGlyphs p) {g : Glyph} (hg : p (.char g.scalar)) :
    (s.step g).AllGlyphs p := by
  unfold WordScan.step
  simp only
  split
  · exact h.flush
  · refine ⟨fun g' hg' => ?_, h.words⟩
    rcases List.mem_cons.mp hg' with rfl | hg'
    · exact hg
    · exact h.word g' hg'

theorem AllGlyphs.foldl (h : s.AllGlyphs p) {t : Text} (ht : ∀ g ∈ t, p (.char g.scalar)) :
    (t.foldl WordScan.step s).AllGlyphs p := by
  induction t generalizing s with
  | nil => exact h
  | cons g rest ih =>
    exact ih (h.step (ht g List.mem_cons_self)) fun g hg => ht g (List.mem_cons_of_mem _ hg)

end WordScan

namespace Text

/-- Words are made of the characters of their text. -/
theorem mem_words {p : Glyph → Prop} {t : Text} (ht : ∀ g ∈ t, p (.char g.scalar)) :
    ∀ w ∈ t.words, ∀ g ∈ w, p g := by
  intro w hw
  have hstart : WordScan.start.AllGlyphs p := ⟨nofun, nofun⟩
  exact (hstart.foldl ht).flush.words w (List.mem_reverse.mp hw)

theorem mem_of_mem_trim {t : Text} {g : Glyph} (h : g ∈ t.trim) : g ∈ t := by
  have hfront := (List.dropWhile_sublist Glyph.isBlank).subset (List.mem_reverse.mp h)
  exact (List.dropWhile_sublist Glyph.isBlank).subset (List.mem_reverse.mp hfront)

theorem mem_of_mem_rest {t label rest : Text} (h : t.splitLabel? = some (label, rest)) {g : Glyph}
    (hg : g ∈ rest) : g ∈ t := by
  unfold splitLabel? at h
  split at h
  · rename_i colon behind hdrop
    split at h
    · cases h
      have hmem : g ∈ t.dropWhile isLabelGlyph := by
        rw [hdrop]
        exact List.mem_cons_of_mem _ (mem_of_mem_trim hg)
      exact (List.dropWhile_sublist _).subset hmem
    · cases h
  · cases h

theorem IsBare.of_glyphs {t word : Text} (h : t.IsBare)
    (hword : ∀ g ∈ word, ∃ g' ∈ t, g = .char g'.scalar) : word.IsBare := by
  have hself : ∀ {c : Char} {g : Glyph}, c ≠ replacementChar →
      Glyph.char c = .char g.scalar →
      g = .char c := by
    intro c g hc heq
    cases g with
    | char d => exact heq.symm
    | stray b => exact absurd (Glyph.char.inj heq) hc
  constructor
  · intro hmem
    obtain ⟨g, hg, heq⟩ := hword _ hmem
    exact h.1 (hself (by decide) heq ▸ hg)
  · intro hmem
    obtain ⟨g, hg, heq⟩ := hword _ hmem
    exact h.2 (hself (by decide) heq ▸ hg)

theorem IsBare.words {t : Text} (h : t.IsBare) : ∀ w ∈ t.words, w.IsBare := by
  intro w hw
  refine h.of_glyphs fun g hg => ?_
  exact mem_words (p := fun g => ∃ g' ∈ t, g = .char g'.scalar)
    (fun g hg => ⟨g, hg, rfl⟩) w hw g hg

theorem IsBare.subset {t u : Text} (h : t.IsBare) (hsub : ∀ g ∈ u, g ∈ t) : u.IsBare :=
  ⟨fun hmem => h.1 (hsub _ hmem), fun hmem => h.2 (hsub _ hmem)⟩

theorem IsBare.expression? {word : Text} (h : word.IsBare) : word.expression? = none := by
  unfold Text.expression?
  split
  · exact absurd (List.mem_cons_of_mem _ List.mem_cons_self) h.2
  · rfl

/-- What is not quoted is no string. -/
theorem IsBare.string {word : Text} (h : word.IsBare) :
    StringLiteral.words word = .error .malformedString := by
  have hbody : StringLiteral.body? word = none := by
    unfold StringLiteral.body?
    split
    · exact absurd List.mem_cons_self h.1
    · rfl
  unfold StringLiteral.words
  rw [hbody]
  rfl

end Text

/-- A line without strings and expressions gives operands without them. -/
theorem Statement.bare_of_ofLine {implicitLabels : Bool} {line : SourceLine} {s : Statement}
    (hline : line.text.stripComment.IsBare) (h : ofLine implicitLabels line = .ok (some s)) :
    ∀ w ∈ s.operands, w.IsBare := by
  have htrim : line.text.stripComment.trim.IsBare := hline.subset fun _ => Text.mem_of_mem_trim
  have hwords : ∀ {label : Option Text} {text : Text}, text.IsBare →
      ofWords implicitLabels line label text.words = .ok s → ∀ w ∈ s.operands, w.IsBare := by
    intro label text htext hs w hw
    refine htext.words w ?_
    obtain ⟨-, heq⟩ | ⟨_, _, hcut, -, -⟩ | ⟨_, _, _, _, hcut, -, -, -⟩ :=
      cases_of_ofWords hs
    · rw [heq] at hw
      cases hw
    · rw [hcut]
      exact List.mem_cons_of_mem _ hw
    · rw [hcut]
      exact List.mem_cons_of_mem _ (List.mem_cons_of_mem _ hw)
  unfold ofLine at h
  simp only at h
  split at h
  · cases h
  · split at h
    · rename_i label rest hsplit
      obtain ⟨name, -, h⟩ := bind_eq_ok.mp h
      obtain ⟨s', hs', h⟩ := map_eq_ok.mp h
      cases h
      exact hwords (htrim.subset fun _ => Text.mem_of_mem_rest hsplit) hs'
    · obtain ⟨s', hs', h⟩ := map_eq_ok.mp h
      cases h
      exact hwords htrim hs'

/-! ## Operands -/

/-- Words that differ only in the case of letters and are neither strings nor expressions. -/
structure Text.SameLetters (w w' : Text) : Prop where
  bare : w.IsBare
  folded : w.folded = w'.folded

/-- Faults that differ only in the case of the word that they quote. -/
def Fault.SameLetters (fault fault' : Fault) : Prop := fault.folded = fault'.folded

theorem Fault.SameLetters.refl (fault : Fault) : fault.SameLetters fault := rfl

namespace Text.SameLetters

variable {w w' : Text}

theorem bare' (h : w.SameLetters w') : w'.IsBare := by
  rw [← isBare_folded, ← h.folded, isBare_folded]
  exact h.bare

/-- What does not see folding does not see the case of letters. -/
theorem blind {α : Type} {f : Text → α} (hf : ∀ word, f word.folded = f word)
    (h : w.SameLetters w') :
    f w' = f w := by
  rw [← hf w', ← h.folded, hf]

theorem register (h : w.SameLetters w') :
    Beside Fault.SameLetters Eq (Register.parse w) (Register.parse w') := by
  unfold Register.parse
  rw [h.blind Register.ofWord?_folded]
  split
  · exact .ok rfl
  · exact .error (congrArg Fault.invalidRegister h.folded)

theorem eq_nil_iff (h : w.SameLetters w') : w = [] ↔ w' = [] := by
  have hlength := congrArg List.length h.folded
  unfold Text.folded at hlength
  rw [List.length_map, List.length_map] at hlength
  rw [← List.length_eq_zero_iff, ← List.length_eq_zero_iff, hlength]

theorem number [Interpreter] (h : w.SameLetters w') (scope : Scope) :
    Beside Fault.SameLetters Eq (scope.number w) (scope.number w') := by
  unfold Scope.number
  simp only [h.bare.expression?, h.bare'.expression?, h.blind literal?_folded]
  split
  · exact .ok rfl
  · exact .error (congrArg Fault.invalidImmediate h.folded)

theorem immediate [Interpreter] (h : w.SameLetters w') (scope : Scope) (f : Field) :
    Beside Fault.SameLetters Eq (scope.immediate f w) (scope.immediate f w') := by
  have hnumber := h.number scope
  unfold Scope.immediate
  generalize scope.number w = x, scope.number w' = y at hnumber ⊢
  cases hnumber with
  | ok hvalue =>
    cases hvalue
    exact .refl Fault.SameLetters.refl _
  | error hfault => exact .error hfault

/-- A name that is not defined is quoted in upper case, and another word as it is written. -/
theorem immediateOrLabel [Interpreter] (h : w.SameLetters w') (scope : Scope) (f : Field) :
    Beside Fault.SameLetters Eq (scope.immediateOrLabel f w) (scope.immediateOrLabel f w') := by
  unfold Scope.immediateOrLabel Scope.immediate Scope.number
  simp only [h.bare.expression?, h.bare'.expression?, h.blind literal?_folded,
    h.blind isIdentifier_folded, h.blind upper_folded]
  cases w.literal? with
  | some v => exact .refl Fault.SameLetters.refl _
  | none =>
    simp only
    split
    · exact .error rfl
    · exact .error (congrArg Fault.invalidImmediate h.folded)

theorem lookup? (h : w.SameLetters w') (symbols : SymbolTable) :
    symbols.lookup? w' = symbols.lookup? w := by
  unfold SymbolTable.lookup?
  rw [h.blind upper_folded]

theorem offset [Interpreter] (h : w.SameLetters w') (scope : Scope) (bits : Nat) :
    Beside Fault.SameLetters Eq (scope.offset bits w) (scope.offset bits w') := by
  unfold Scope.offset
  rw [h.lookup?]
  split
  · exact .refl Fault.SameLetters.refl _
  · exact h.immediateOrLabel scope (Field.signed bits)

theorem word [Interpreter] (h : w.SameLetters w') (scope : Scope) :
    Beside Fault.SameLetters Eq (scope.word w) (scope.word w') := by
  unfold Scope.word
  rw [h.lookup?]
  split
  · exact .ok rfl
  · exact (h.immediateOrLabel scope Field.word).map_eq UInt16.ofBitVec

theorem string (h : w.SameLetters w') :
    Beside Fault.SameLetters Eq (StringLiteral.words w) (StringLiteral.words w') := by
  rw [h.bare.string, h.bare'.string]
  exact .error rfl

end Text.SameLetters

theorem Scope.readAlike_sameLetters [Interpreter] (m : Mnemonic) (scope : Scope) :
    ReadAlike Fault.SameLetters Text.SameLetters m scope scope where
  register := fun _ _ h => h.register
  start := fun _ _ _ h => ⟨h.eq_nil_iff, h.blind Text.startsRegister_folded⟩
  immediate := fun _ _ _ h f => h.immediate scope f
  string := fun _ _ _ h => h.string
  offset := fun _ _ _ h bits => h.offset scope bits
  word := fun _ _ _ h => h.word scope

/-! ## Sources -/

/-- Lists with the same images under `f`, member by member. -/
theorem forall₂_of_images {α β : Type} {f : α → β} {p : α → Prop} {l l' : List α}
    (hp : ∀ x ∈ l, p x)
    (h : l.map f = l'.map f) : List.Forall₂ (fun x x' => p x ∧ f x = f x') l l' := by
  have himages : List.Forall₂ Eq (l.map f) (l'.map f) := by
    rw [List.forall₂_eq_eq_eq]
    exact h
  rw [List.forall₂_map_left_iff, List.forall₂_map_right_iff] at himages
  exact (List.forall₂_and_left l l').mpr ⟨hp, himages⟩

/-- Lines that fold to the same and hold neither strings nor expressions are taken apart alike. -/
theorem Statement.ofLine_alike_of_folded [Interpreter] (implicitLabels : Bool)
    {line line' : SourceLine}
    (hbare : line.text.stripComment.IsBare) (hfolded : line.folded = line'.folded) :
    Beside Fault.SameLetters (Option.Rel (Statement.Alike Fault.SameLetters))
      (ofLine implicitLabels line) (ofLine implicitLabels line') := by
  have himages := ofLine_folded implicitLabels line
  rw [hfolded, ofLine_folded implicitLabels line'] at himages
  refine (Beside.of_images himages.symm).imp_values fun found found' hfound hfound' hsame => ?_
  cases found with
  | none =>
    cases found' with
    | none => exact .none
    | some s' => cases hsame
  | some s =>
    cases found' with
    | none => cases hsame
    | some s' =>
      injection Option.some.inj hsame with _ hlabel hop hoperands
      have hletters : List.Forall₂ Text.SameLetters s.operands s'.operands :=
        (forall₂_of_images (bare_of_ofLine hbare hfound) hoperands).imp fun _ _ h =>
          ⟨h.1, h.2⟩
      have hnumber : s'.line.number = s.line.number := by
        rw [line_of_ofLine hfound, line_of_ofLine hfound']
        exact (congrArg SourceLine.number hfolded).symm
      exact .some (alike_of_operands Fault.SameLetters.refl Scope.readAlike_sameLetters hnumber
        hop.symm hlabel.symm hletters)

/-- Sources that differ only in the case of letters assemble alike if, comments aside, no line holds
a double quote or an opening parenthesis. Either both give programs with the same origin, the same
words at the same addresses from lines of the same numbers and the same symbols, or both fail in a
line of the same number with the same fault, but for the case of the word that it quotes. -/
theorem letter_case_is_immaterial [Interpreter] (a : Assembler) (lines lines' : List SourceLine)
    (hbare : ∀ line ∈ lines, line.text.stripComment.IsBare)
    (hcase : lines.map SourceLine.folded = lines'.map SourceLine.folded) :
    Beside (Error.Beside Fault.SameLetters) (Program.Beside Eq) (a.assembleLines lines).result
      (a.assembleLines lines').result := by
  refine Assembler.assembleLines_beside Fault.SameLetters.refl a ?_
  refine (forall₂_of_images hbare hcase).imp fun line line' h => ?_
  have hnumber : line'.number = line.number := (congrArg SourceLine.number h.2).symm
  exact ⟨hnumber, Statement.ofLine_alike_of_folded a.implicitLabels h.1 h.2⟩

/-- A loop behind a label without a colon, and a label that hides a number. -/
def countdownLines : List SourceLine :=
  SourceLine.ofTexts [".ORIG x40AE", "LOOP ADD R1, R1, #-1 ; \"(COUNTS) DOWN", "XOR R2, R1, 0XF",
    "BRP LOOP", "LEA R7, X1F", "X1F: .FILL X1F", ".FILL XABCD", ".END"]

/-- The same lines in other letters. -/
def countdownLinesRespelled : List SourceLine :=
  SourceLine.ofTexts [".Orig X40aE", "loop aDD r1, R1, #-1 ; \"(counts) down", "xor R2, r1, 0xf",
    "brP Loop", "lea r7, x1F", "x1f: .fill X1f", ".Fill xaBcD", ".end"]

/-- The loop assembles to the same program in either spelling. -/
theorem letter_case_is_immaterial_countdown :
    (∀ line ∈ countdownLines, line.text.stripComment.IsBare) ∧
    countdownLines.map SourceLine.folded = countdownLinesRespelled.map SourceLine.folded ∧
    ∃ prog prog', (Assembler.assembleLines ⟨false, true, .empty⟩ countdownLines).result =
      .ok prog ∧
      (Assembler.assembleLines ⟨false, true, .empty⟩ countdownLinesRespelled).result =
        .ok prog' ∧
      prog.words = [0x127F, 0x946F, 0x03FD, 0xEE00, 0x40B6, 0xABCD] ∧
        Program.Beside Eq prog prog' := by
  have hbare : ∀ line ∈ countdownLines, line.text.stripComment.IsBare := by decide +kernel
  have hcase : countdownLines.map SourceLine.folded =
      countdownLinesRespelled.map SourceLine.folded := by
    decide +kernel
  have hprog : ∃ prog, (Assembler.assembleLines ⟨false, true, .empty⟩ countdownLines).result =
      .ok prog ∧
      prog.words = [0x127F, 0x946F, 0x03FD, 0xEE00, 0x40B6, 0xABCD] :=
        exists_ok_of_any (by decide +kernel)
  obtain ⟨prog, hprog, hwords⟩ := hprog
  have hbeside := letter_case_is_immaterial ⟨false, true, .empty⟩ countdownLines
    countdownLinesRespelled hbare hcase
  obtain ⟨prog', hprog'⟩ := hbeside.exists_ok_iff.mp ⟨prog, hprog⟩
  rw [hprog, hprog'] at hbeside
  exact ⟨hbare, hcase, prog, prog', hprog, hprog', hwords, hbeside.of_ok⟩

end LittleComputer
