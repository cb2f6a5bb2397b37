import LittleComputer.Proofs.Nesting
import LittleComputer.Proofs.Scan

/-!
# What separates words

A comma or a blank separates words unless it stands in a string or in parentheses. That is told by
the text in front of it alone. Words are the pieces between separators, so that nothing but
separators is lost. A word that another one follows closes what it opens. Joined by commas, the
words are therefore found again.
-/

namespace LittleComputer

/-- The character separates words if the text stands in front of it: it is a comma or a blank
outside of all strings and parentheses. -/
def Separates (before : List Char) (c : Char) : Prop :=
  (c = ',' ∨ isBlank c = true) ∧ Closes false before

instance (before : List Char) (c : Char) : Decidable (Separates before c) :=
  inferInstanceAs (Decidable ((c = ',' ∨ isBlank c = true) ∧ Closes false before))

/-! ## Pieces -/

/-- The characters of a text that do not separate words; `before` stands in front of it. -/
def unseparated (before : List Char) : List Char → List Char
  | [] => []
  | c :: rest =>
    if Separates before c then unseparated (before ++ [c]) rest
    else c :: unseparated (before ++ [c]) rest

/-- What stands between the separators of a text; `before` stands in front of it. -/
def pieces (before : List Char) : List Char → List (List Char)
  | [] => [[]]
  | c :: rest =>
    if Separates before c then [] :: pieces (before ++ [c]) rest
    else (pieces (before ++ [c]) rest).modifyHead (c :: ·)

theorem exists_pieces (before t : List Char) : ∃ first more, pieces before t = first :: more := by
  induction t generalizing before with
  | nil => exact ⟨[], [], rfl⟩
  | cons c rest ih =>
    obtain ⟨first, more, hpieces⟩ := ih (before ++ [c])
    unfold pieces
    rw [hpieces]
    by_cases hc : Separates before c
    · exact ⟨[], first :: more, if_pos hc⟩
    · exact ⟨c :: first, more, if_neg hc⟩

theorem flatten_pieces (before t : List Char) :
    (pieces before t).flatten = unseparated before t := by
  induction t generalizing before with
  | nil => rfl
  | cons c rest ih =>
    unfold pieces unseparated
    rw [← ih]
    by_cases hc : Separates before c
    · rw [if_pos hc, if_pos hc]
      rfl
    · obtain ⟨first, more, hpieces⟩ := exists_pieces (before ++ [c]) rest
      rw [if_neg hc, if_neg hc, hpieces]
      rfl

namespace WordScan

variable {s : WordScan} {before : List Char}

/-- Where the next character stands. -/
def place (s : WordScan) : Place := ⟨s.quoting, s.depth⟩

theorem place_eq_outside : s.place = .outside 0 ↔ s.quoting = .outside ∧ s.depth = 0 := by
  simp [place, Place.outside]

theorem separates_eq_true {c : Char} :
    s.separates c = true ↔ (c = ',' ∨ isBlank c = true) ∧ s.place = .outside 0 := by
  rw [place_eq_outside]
  simp only [separates, Bool.and_eq_true, Bool.or_eq_true, beq_iff_eq]
  exact and_comm

theorem separates_iff (h : s.place = (Place.outside 0).after before) (c : Char) :
    s.separates c = true ↔ Separates before c := by
  rw [separates_eq_true, h, Place.after_eq_outside_iff, Separates]

theorem step_of_separates {g : Glyph} (h : s.separates g.scalar = true) : s.step g = s.flush := by
  unfold step
  exact if_pos h

theorem step_of_not_separates {g : Glyph} (h : ¬ s.separates g.scalar = true) :
    s.step g = ⟨s.quoting.next g.scalar, s.depthAfter g.scalar, .char g.scalar :: s.word,
      s.words⟩ := by
  unfold step
  exact if_neg h

theorem flush_of_nil (h : s.word = []) : s.flush = s := by
  unfold flush
  rw [h]
  rfl

theorem flush_of_ne_nil (h : s.word ≠ []) :
    s.flush = ⟨s.quoting, s.depth, [], s.word.reverse :: s.words⟩ := by
  unfold flush
  rw [if_neg (by simpa using h)]

theorem place_flush (s : WordScan) : s.flush.place = s.place := by
  by_cases hword : s.word = []
  · rw [flush_of_nil hword]
  · rw [flush_of_ne_nil hword]
    rfl

/-- A separator leaves the place as it is, as any character does that neither opens nor closes. -/
theorem place_step (s : WordScan) (g : Glyph) : (s.step g).place = s.place.next g.scalar := by
  by_cases hg : s.separates g.scalar = true
  · obtain ⟨hc, hplace⟩ := separates_eq_true.mp hg
    have hother : ∀ x : Char, x ≠ ',' → isBlank x = false → g.scalar ≠ x := by
      rintro x hcomma hblank rfl
      rcases hc with hc | hc
      · exact hcomma hc
      · cases hblank.symm.trans hc
    rw [step_of_separates hg, place_flush, hplace,
      Place.next_other (hother _ (by decide) (by decide))
      (hother _ (by decide) (by decide)) (hother _ (by decide) (by decide))]
  · rw [step_of_not_separates hg]
    rfl

theorem place_foldl (t : Text) (s : WordScan) :
    (t.foldl step s).place = s.place.after t.scalars := by
  induction t generalizing s with
  | nil => rfl
  | cons g rest ih => rw [List.foldl_cons, ih, place_step, Text.scalars_cons, Place.after_cons]

/-- Words of characters, without those that are empty. -/
def written (ps : List (List Char)) : List Text := (ps.filter (· ≠ [])).map (·.map .char)

theorem written_append (ps qs : List (List Char)) :
    written (ps ++ qs) = written ps ++ written qs := by
  simp [written]

theorem flush_words {w : List Char} (h : s.word = (w.map .char).reverse) :
    s.flush.words.reverse = s.words.reverse ++ written [w] := by
  by_cases hw : w = []
  · subst hw
    rw [flush_of_nil h]
    simp [written]
  · rw [flush_of_ne_nil (by simpa [h] using hw)]
    simp [written, hw, h]

theorem flush_word (s : WordScan) : s.flush.word = [] := by
  by_cases hword : s.word = []
  · rw [flush_of_nil hword, hword]
  · rw [flush_of_ne_nil hword]

/-- The scan goes on with the word it is reading, whose characters are `w`, and finds the pieces. -/
theorem finish_foldl {t : Text} {w first : List Char} {more : List (List Char)}
    (hplace : s.place = (Place.outside 0).after before) (hword : s.word = (w.map .char).reverse)
    (hpieces : pieces before t.scalars = first :: more) :
    (t.foldl step s).finish = s.words.reverse ++ written ((w ++ first) :: more) := by
  induction t generalizing s before w first more with
  | nil =>
    obtain ⟨rfl, rfl⟩ := List.cons.inj hpieces
    rw [List.append_nil]
    exact flush_words hword
  | cons g rest ih =>
    have hnext : (s.step g).place = (Place.outside 0).after (before ++ [g.scalar]) := by
      rw [place_step, hplace, Place.after_append]
      rfl
    obtain ⟨first', more', hrest⟩ := exists_pieces (before ++ [g.scalar]) (Text.scalars rest)
    rw [Text.scalars_cons, pieces, hrest] at hpieces
    rw [List.foldl_cons]
    by_cases hg : Separates before g.scalar
    · rw [if_pos hg] at hpieces
      obtain ⟨rfl, rfl⟩ := List.cons.inj hpieces
      have hflush := step_of_separates ((separates_iff hplace _).mpr hg)
      rw [ih (w := []) hnext (hflush ▸ flush_word s) hrest, hflush, flush_words hword,
        List.append_assoc, ← written_append, List.append_nil]
      rfl
    · rw [if_neg hg] at hpieces
      obtain ⟨rfl, rfl⟩ := List.cons.inj hpieces
      have hstep := step_of_not_separates (mt (separates_iff hplace _).mp hg)
      have hmore : (s.step g).word = ((w ++ [g.scalar]).map .char).reverse := by
        rw [hstep]
        simp [hword]
      rw [ih hnext hmore hrest, hstep, List.append_assoc]
      rfl

/-- Between two words the scan is as at its start, but for the words it has found. -/
theorem eq_behind_start (hplace : s.place = .outside 0) (hword : s.word = []) :
    s = behind s.words start := by
  obtain ⟨hquoting, hdepth⟩ := place_eq_outside.mp hplace
  cases s with
  | mk quoting depth word words =>
    cases hquoting
    cases hdepth
    cases hword
    simp [behind, start]

/-- What the scan found are words by themselves, and close what they open. What it is reading is
read in the same way by itself. -/
structure Faithful (s : WordScan) : Prop where
  found : ∀ w ∈ s.words, Closes false (Text.scalars w) ∧ w.words = [w]
  reading : s.word.reverse.foldl step start = { s with words := [] }

theorem faithful_start : Faithful start := ⟨nofun, rfl⟩

theorem Faithful.word (h : s.Faithful) (hword : s.word ≠ []) :
    Text.words s.word.reverse = [s.word.reverse] := by
  have hopen : WordScan.word { s with words := [] } ≠ [] := hword
  unfold Text.words
  rw [h.reading, finish, flush_of_ne_nil hopen]
  rfl

theorem Faithful.flush (h : s.Faithful) (hplace : s.place = .outside 0) : s.flush.Faithful := by
  by_cases hword : s.word = []
  · rw [flush_of_nil hword]
    exact h
  · rw [flush_of_ne_nil hword]
    refine ⟨List.forall_mem_cons.mpr ⟨⟨?_, h.word hword⟩, h.found⟩, ?_⟩
    · have hend := place_foldl s.word.reverse start
      rw [h.reading] at hend
      exact Place.after_eq_outside_iff.mp (hend.symm.trans hplace)
    · obtain ⟨hquoting, hdepth⟩ := place_eq_outside.mp hplace
      rw [hquoting, hdepth]
      rfl

theorem Faithful.step (h : s.Faithful) (g : Glyph) : (s.step g).Faithful := by
  by_cases hg : s.separates g.scalar = true
  · rw [step_of_separates hg]
    exact h.flush (separates_eq_true.mp hg).2
  · rw [step_of_not_separates hg]
    refine ⟨h.found, ?_⟩
    have hsame : ¬ separates { s with words := [] } (Glyph.char g.scalar).scalar = true := hg
    rw [List.reverse_cons, List.foldl_append, h.reading, List.foldl_cons,
      step_of_not_separates hsame]
    rfl

theorem faithful_foldl (t : Text) (h : s.Faithful) : (t.foldl WordScan.step s).Faithful := by
  induction t generalizing s with
  | nil => exact h
  | cons g rest ih => exact ih (h.step g)

end WordScan

namespace Text

variable {t x y : Text}

/-- Words are the pieces between separators. -/
theorem words_eq_pieces (t : Text) : t.words = WordScan.written (pieces [] t.scalars) := by
  obtain ⟨first, more, hpieces⟩ := exists_pieces [] t.scalars
  rw [hpieces]
  exact WordScan.finish_foldl (s := .start) (w := []) rfl rfl hpieces

/-- A text can be cut at a separator. -/
theorem words_append_separator {g : Glyph} (hx : Closes false x.scalars) (hg : g.isSeparator = true)
    (y : Text) :
    words (x ++ g :: y) = words x ++ words y := by
  let s := x.foldl WordScan.step .start
  have hplace : s.place = .outside 0 := by
    rw [WordScan.place_foldl]
    exact Place.after_eq_outside_iff.mpr hx
  have hseparates : s.separates g.scalar = true := by
    rw [WordScan.separates_eq_true]
    simpa [Glyph.isSeparator, Glyph.isBlank, hplace] using hg
  have hstep : s.step g = WordScan.behind s.flush.words .start := by
    rw [WordScan.step_of_separates hseparates]
    exact WordScan.eq_behind_start ((WordScan.place_flush s).trans hplace) (WordScan.flush_word s)
  unfold words
  rw [List.foldl_append, List.foldl_cons]
  show (y.foldl WordScan.step (s.step g)).finish = s.flush.words.reverse ++ _
  rw [hstep, WordScan.foldl_behind, WordScan.finish_behind]

/-- Words that close what they open are found again between commas, and so is a last one that does
not. -/
theorem words_intercalate {ws : List Text} (hwords : ∀ w ∈ ws, w.words = [w])
    (hcloses : ∀ w ∈ ws.dropLast, Closes false (scalars w)) :
    words ([Glyph.char ','].intercalate ws) = ws := by
  induction ws with
  | nil => rfl
  | cons w rest ih =>
    obtain ⟨hword, hrest⟩ := List.forall_mem_cons.mp hwords
    cases rest with
    | nil => simpa using hword
    | cons v rest =>
      obtain ⟨hw, hmore⟩ := List.forall_mem_cons.mp hcloses
      have hjoined : [Glyph.char ','].intercalate (w :: v :: rest) =
          w ++ Glyph.char ',' :: [Glyph.char ','].intercalate (v :: rest) := by
        simp
      rw [hjoined, words_append_separator hw rfl, hword, ih hrest hmore]
      rfl

theorem words_join_words (t : Text) : words ([Glyph.char ','].intercalate t.words) = t.words := by
  let s := t.foldl WordScan.step .start
  have hs : s.Faithful := WordScan.faithful_foldl t WordScan.faithful_start
  have hfound : ∀ w ∈ s.words.reverse, Closes false (scalars w) ∧ w.words = [w] := fun w hw =>
    hs.found w (List.mem_reverse.mp hw)
  by_cases hword : s.word = []
  · have hwords : t.words = s.words.reverse := by
      show s.flush.words.reverse = _
      rw [WordScan.flush_of_nil hword]
    rw [hwords]
    exact words_intercalate (fun w hw => (hfound w hw).2) fun w hw =>
      (hfound w (List.dropLast_subset _ hw)).1
  · have hwords : t.words = s.words.reverse ++ [s.word.reverse] := by
      show s.flush.words.reverse = _
      rw [WordScan.flush_of_ne_nil hword, List.reverse_cons]
    rw [hwords]
    refine words_intercalate (fun w hw => ?_) fun w hw => ?_
    · rcases List.mem_append.mp hw with hw | hw
      · exact (hfound w hw).2
      · rw [List.mem_singleton.mp hw]
        exact hs.word hword
    · rw [List.dropLast_concat] at hw
      exact (hfound w hw).1

end Text

/-- Nothing but separators is lost between words. The words of a text are the pieces between its
separators that are not empty. So no word is empty, and one behind the other they are the characters
of the text without the commas and blanks that stand outside of strings and parentheses. The words
joined by commas have the same words. -/
theorem only_separators_are_lost (t : Text) :
    (∀ w ∈ t.words, w ≠ []) ∧
    t.words.flatten = (unseparated [] t.scalars).map .char ∧
    Text.words ([Glyph.char ','].intercalate t.words) = t.words ∧
    t.words = ((pieces [] t.scalars).filter (· ≠ [])).map (·.map .char) := by
  have hwords := Text.words_eq_pieces t
  refine ⟨fun w hw => ?_, ?_, t.words_join_words, hwords⟩
  · rw [hwords] at hw
    obtain ⟨p, hp, rfl⟩ := List.mem_map.mp hw
    simpa using (List.mem_filter.mp hp).2
  · rw [hwords, ← flatten_pieces, WordScan.written, ← List.map_flatten,
      List.flatten_filter_ne_nil]

end LittleComputer
