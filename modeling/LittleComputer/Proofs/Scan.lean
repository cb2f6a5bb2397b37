import LittleComputer.Proofs.Reading

/-!
# Scans of a line

A line is scanned for its comment, for its label and for its words. Most characters mean nothing to
any of these scans; they are passed one by one, and what stands behind them is scanned as if it
stood alone. What is in front of the first word of a text are separators, and behind a word of such
characters there is a separator or the end.
-/

namespace LittleComputer

/-- Whether a character means nothing to the scans of a line: it neither separates nor opens
anything. -/
def isPlain (c : Char) : Bool := !isBlank c && !(c ∈ [',', '"', '(', ')', ':', ';'])

/-- A comma or white space, which separate words outside of strings and parentheses. -/
def Glyph.isSeparator (g : Glyph) : Bool := g.scalar == ',' || g.isBlank

theorem isPlain_iff {c : Char} : isPlain c = true ↔
    isBlank c = false ∧ c ≠ ',' ∧ c ≠ '"' ∧ c ≠ '(' ∧ c ≠ ')' ∧ c ≠ ':' ∧
      c ≠ ';' := by
  simp [isPlain]

theorem Glyph.isBlank_of_plain {cs : List Char} (hplain : ∀ c ∈ cs, isPlain c = true) :
    ∀ g ∈ cs.map Glyph.char, g.isBlank = false := by
  intro g hg
  obtain ⟨c, hc, rfl⟩ := List.mem_map.mp hg
  exact (isPlain_iff.mp (hplain c hc)).1

theorem Glyph.is_of_plain {cs : List Char} (hplain : ∀ c ∈ cs, isPlain c = true) {x : Char}
    (hx : isPlain x = false) : ∀ g ∈ cs.map Glyph.char, g.is x = false := by
  intro g hg
  obtain ⟨c, hc, rfl⟩ := List.mem_map.mp hg
  cases hsame : (Glyph.char c).is x with
  | false => rfl
  | true =>
    rw [← Glyph.char.inj ((Glyph.is_iff _ _).mp hsame)] at hx
    cases (hplain c hc).symm.trans hx

theorem Glyph.is_of_separator {g : Glyph} {x : Char} (hg : g.isSeparator = true)
    (hcomma : x ≠ ',')
    (hblank : LittleComputer.isBlank x = false) : g.is x = false := by
  cases hsame : g.is x with
  | false => rfl
  | true =>
    rw [(Glyph.is_iff _ _).mp hsame] at hg
    simp [Glyph.isSeparator, Glyph.isBlank, hcomma, hblank] at hg

/-! ## Comments -/

namespace Text

theorem stripCommentFrom_eq (q : Quoting) (t seen : Text) :
    stripCommentFrom q t seen = seen.reverse ++ stripCommentFrom q t [] := by
  induction t generalizing q seen with
  | nil => simp [stripCommentFrom]
  | cons g rest ih =>
    rw [stripCommentFrom, stripCommentFrom]
    split
    · simp
    · rw [ih, ih _ [g]]
      simp

theorem stripCommentFrom_cons (q : Quoting) (g : Glyph) (t : Text) :
    stripCommentFrom q (g :: t) [] =
      if q = .outside ∧ g = .char ';' then []
        else g :: stripCommentFrom (q.next g.scalar) t [] := by
  rw [stripCommentFrom, stripCommentFrom_eq _ t [g]]
  rfl

/-- A text is its own rest, or a semicolon stands behind the rest. -/
theorem stripCommentFrom_cut (q : Quoting) (t : Text) :
    stripCommentFrom q t [] = t ∨
      ∃ comment, t = stripCommentFrom q t [] ++ .char ';' :: comment := by
  induction t generalizing q with
  | nil => exact .inl rfl
  | cons g rest ih =>
    rw [stripCommentFrom_cons]
    split
    · rename_i hcomment
      rw [hcomment.2]
      exact .inr ⟨rest, rfl⟩
    · rcases ih (q.next g.scalar) with hwhole | ⟨comment, hcut⟩
      · rw [hwhole]
        exact .inl rfl
      · exact .inr ⟨comment, congrArg (g :: ·) hcut⟩

/-- A text without quotes and semicolons is passed on the way to the comment. -/
theorem stripComment_append {s : Text} (h : ∀ g ∈ s, g.is ';' = false ∧ g.is '"' = false)
    (t : Text) :
    stripComment (s ++ t) = s ++ stripComment t := by
  induction s with
  | nil => rfl
  | cons g rest ih =>
    obtain ⟨hsemicolon, hquote⟩ := h g List.mem_cons_self
    have hnext : Quoting.next .outside g.scalar = .outside := by
      cases g with
      | char c =>
        have hc : c ≠ '"' := by
          rintro rfl
          cases hquote
        simp [Quoting.next, hc]
      | stray b => rfl
    have hg : ¬(Quoting.outside = .outside ∧ g = .char ';') := by
      rintro ⟨-, rfl⟩
      cases hsemicolon
    have hrest := ih fun g hg => h g (List.mem_cons_of_mem _ hg)
    unfold stripComment at hrest ⊢
    rw [List.cons_append, stripCommentFrom_cons, if_neg hg, hnext, hrest, List.cons_append]

/-- What is left of a line without its comment can be cut in front of any quote, and then the line
can be cut there. -/
theorem cut_of_stripComment {t front rest : Text}
    (hfront : ∀ g ∈ front, g.is ';' = false ∧ g.is '"' = false)
    (h : t.stripComment = front ++ rest) :
    ∃ back, t = front ++ back ∧ back.stripComment = rest := by
  obtain ⟨comment, hcomment⟩ : ∃ comment, t = t.stripComment ++ comment := by
    rcases stripCommentFrom_cut .outside t with hwhole | ⟨comment, hcut⟩
    · exact ⟨[], by rw [List.append_nil]; exact hwhole.symm⟩
    · exact ⟨_, hcut⟩
  rw [h, List.append_assoc] at hcomment
  refine ⟨rest ++ comment, hcomment, List.append_cancel_left (?_ : front ++ _ = front ++ rest)⟩
  rw [← stripComment_append hfront, ← hcomment, h]

theorem stripComment_of_unquoted {t : Text}
    (h : ∀ g ∈ t, g.is ';' = false ∧ g.is '"' = false) :
    t.stripComment = t := by
  have hwhole := stripComment_append h []
  rwa [List.append_nil, show stripComment [] = [] from rfl, List.append_nil] at hwhole

end Text

/-! ## Words -/

namespace WordScan

theorem foldl_of_plain {cs : List Char} (h : ∀ c ∈ cs, isPlain c = true) (word : Text)
    (words : List Text) :
    (cs.map Glyph.char).foldl step ⟨.outside, 0, word, words⟩ =
      ⟨.outside, 0, (cs.map .char).reverse ++ word, words⟩ := by
  induction cs generalizing word with
  | nil => rfl
  | cons c cs ih =>
    obtain ⟨hblank, hcomma, hquote, hopen, hclose, -, -⟩ :=
      isPlain_iff.mp (h c List.mem_cons_self)
    have hstep : step ⟨.outside, 0, word, words⟩ (.char c) =
        ⟨.outside, 0, .char c :: word, words⟩ := by
      simp [step, separates, depthAfter, Quoting.next, hblank, hcomma, hquote, hopen, hclose]
    rw [List.map_cons, List.foldl_cons, hstep, ih fun c hc => h c (List.mem_cons_of_mem _ hc)]
    simp

/-- The scan with other words found before it. -/
def behind (words : List Text) (s : WordScan) : WordScan := { s with words := s.words ++ words }

variable (words : List Text) (s : WordScan)

theorem flush_behind : (s.behind words).flush = s.flush.behind words := by
  unfold flush behind
  by_cases hword : s.word.isEmpty = true
  · rw [if_pos hword, if_pos hword]
  · rw [if_neg hword, if_neg hword]
    rfl

theorem step_behind (g : Glyph) : (s.behind words).step g = (s.step g).behind words := by
  have hseparates : (s.behind words).separates g.scalar = s.separates g.scalar := rfl
  unfold step
  simp only [hseparates]
  by_cases hg : s.separates g.scalar = true
  · rw [if_pos hg, if_pos hg, flush_behind]
  · rw [if_neg hg, if_neg hg]
    rfl

theorem foldl_behind (t : Text) :
    t.foldl step (s.behind words) = (t.foldl step s).behind words := by
  induction t generalizing s with
  | nil => rfl
  | cons g rest ih => rw [List.foldl_cons, List.foldl_cons, step_behind, ih]

theorem finish_behind : (s.behind words).finish = words.reverse ++ s.finish := by
  unfold finish
  rw [flush_behind]
  exact List.reverse_append

/-- A word that is being read is the first one of those that are found, and goes on as the text
does. -/
theorem finish_of_open (t : Text) (q : Quoting) (depth : Nat) (word : Text) (hword : word ≠ []) :
    ∃ (more : Text) (others : List Text),
      (t.foldl step ⟨q, depth, word, []⟩).finish = (word.reverse ++ more) :: others := by
  induction t generalizing q depth word with
  | nil => exact ⟨[], [], by simp [finish, flush, hword]⟩
  | cons g rest ih =>
    rw [List.foldl_cons]
    by_cases hg : separates ⟨q, depth, word, []⟩ g.scalar = true
    · have hstep : step ⟨q, depth, word, []⟩ g =
          behind [word.reverse] ⟨q, depth, [], []⟩ := by
        simp [step, hg, flush, hword, behind]
      rw [hstep, foldl_behind, finish_behind]
      exact ⟨[], (rest.foldl step ⟨q, depth, [], []⟩).finish, by simp⟩
    · have hstep : step ⟨q, depth, word, []⟩ g =
          ⟨q.next g.scalar, depthAfter ⟨q, depth, word, []⟩ g.scalar, .char g.scalar :: word,
            []⟩ := by
        simp [step, hg]
      obtain ⟨more, others, hfinish⟩ :=
        ih (q.next g.scalar) (depthAfter ⟨q, depth, word, []⟩ g.scalar)
        (.char g.scalar :: word) nofun
      rw [hstep, hfinish]
      exact ⟨.char g.scalar :: more, others, by simp⟩

end WordScan

namespace Text

theorem words_cons_separator {g : Glyph} (hg : g.isSeparator = true) (t : Text) :
    words (g :: t) = words t := by
  have hstep : WordScan.start.step g = .start := by
    show (if g.isSeparator then _ else _) = _
    rw [if_pos hg]
    rfl
  unfold words
  rw [List.foldl_cons, hstep]

/-- Separators in front of the first word change nothing. -/
theorem words_of_separators {front : Text} (h : ∀ g ∈ front, g.isSeparator = true) (t : Text) :
    words (front ++ t) = words t := by
  induction front with
  | nil => rfl
  | cons g rest ih =>
    rw [List.cons_append, words_cons_separator (h g List.mem_cons_self)]
    exact ih fun g hg => h g (List.mem_cons_of_mem _ hg)

/-- Blanks are only lost from the end of a text, where a quote may be open. -/
theorem words_trim {t : Text} (hlast : ∀ g ∈ t.getLast?, g.isBlank = false) :
    t.trim.words = t.words := by
  obtain ⟨before, behind, ht, hbefore, hbehind⟩ := exists_trim t
  have hnone : behind = [] := by
    cases hend : behind.getLast? with
    | none => exact List.getLast?_eq_none_iff.mp hend
    | some g =>
      have hg : t.getLast? = some g := by rw [ht, List.getLast?_append, hend]; rfl
      cases (hlast g hg).symm.trans (hbehind g (List.mem_of_getLast? hend))
  have hseparators : ∀ g ∈ before, g.isSeparator = true := fun g hg => by
    rw [Glyph.isSeparator, hbefore g hg, Bool.or_true]
  rw [hnone, List.append_nil] at ht
  rw [← words_of_separators hseparators t.trim, ← ht]

/-- A word of plain characters ends at the first separator. -/
theorem words_of_plain {cs : List Char} (hplain : ∀ c ∈ cs, isPlain c = true) (hcs : cs ≠ [])
    {t : Text}
    (ht : ∀ g ∈ t.head?, g.isSeparator = true) :
    words (cs.map .char ++ t) = cs.map .char :: words t := by
  have hflush : WordScan.flush ⟨.outside, 0, (cs.map Glyph.char).reverse, []⟩ =
      WordScan.behind [cs.map .char] .start := by
    simp [WordScan.flush, WordScan.behind, WordScan.start, hcs]
  have hopen : words (cs.map .char ++ t) =
      (t.foldl WordScan.step ⟨.outside, 0, (cs.map Glyph.char).reverse, []⟩).finish := by
    unfold words
    rw [List.foldl_append, WordScan.start, WordScan.foldl_of_plain hplain, List.append_nil]
  rw [hopen]
  cases t with
  | nil =>
    rw [List.foldl_nil, WordScan.finish, hflush]
    rfl
  | cons g rest =>
    have hstep : WordScan.step ⟨.outside, 0, (cs.map Glyph.char).reverse, []⟩ g =
        WordScan.behind [cs.map .char] .start := by
      show (if g.isSeparator then _ else _) = _
      rw [if_pos (ht g rfl), hflush]
    rw [words_cons_separator (ht g rfl), List.foldl_cons, hstep, WordScan.foldl_behind,
      WordScan.finish_behind]
    rfl

/-- A word of plain characters goes on with whatever is not a separator. -/
theorem words_of_unseparated {cs : List Char} (hplain : ∀ c ∈ cs, isPlain c = true) {g : Glyph}
    (hg : g.isSeparator = false) (t : Text) :
    ∃ (more : Text) (others : List Text),
      words (cs.map .char ++ g :: t) = (cs.map .char ++ .char g.scalar :: more) :: others := by
  let s : WordScan := ⟨.outside, 0, (cs.map Glyph.char).reverse, []⟩
  have hstep : s.step g =
      ⟨Quoting.next .outside g.scalar, s.depthAfter g.scalar, .char g.scalar :: s.word,
        []⟩ := by
    show (if g.isSeparator then _ else _) = _
    rw [hg]
    rfl
  obtain ⟨more, others, hfinish⟩ := WordScan.finish_of_open t (Quoting.next .outside g.scalar)
    (s.depthAfter g.scalar) (.char g.scalar :: s.word) nofun
  refine ⟨more, others, ?_⟩
  unfold words
  rw [List.foldl_append, WordScan.start, WordScan.foldl_of_plain hplain, List.append_nil,
    List.foldl_cons]
  show (t.foldl WordScan.step (s.step g)).finish = _
  rw [hstep, hfinish]
  simp [s]

/-- What may stand in an identifier is a plain character. -/
theorem plain_of_continues {t : Text} (h : ∀ g ∈ t, g.continuesIdentifier = true) :
    ∃ cs : List Char, t = cs.map .char ∧ ∀ c ∈ cs, isPlain c = true := by
  have htable : ∀ c : Char, c.toNat < 128 → (Glyph.char c).continuesIdentifier = true →
      isPlain c = true :=
    ascii_of_numbers (by decide)
  induction t with
  | nil => exact ⟨[], rfl, nofun⟩
  | cons g rest ih =>
    obtain ⟨cs, hrest, hplain⟩ := ih fun g hg => h g (List.mem_cons_of_mem _ hg)
    have hg := h g List.mem_cons_self
    cases g with
    | char c =>
      refine ⟨c :: cs, by rw [hrest, List.map_cons], List.forall_mem_cons.mpr ⟨?_, hplain⟩⟩
      exact htable c (Glyph.ascii_of_continues hg) hg
    | stray b => cases hg

/-- A first word that is an identifier stands in the text as it is, behind separators only, and the
text behind it has the other words. -/
theorem cut_of_words {t word : Text} {others : List Text} (h : t.words = word :: others)
    (hword : word.isIdentifier = true) :
    ∃ front back : Text, t = front ++ word ++ back ∧ (∀ g ∈ front, g.isSeparator = true) ∧
      back.words = others := by
  let front := t.takeWhile Glyph.isSeparator
  let body := t.dropWhile Glyph.isSeparator
  let back := body.dropWhile Glyph.continuesIdentifier
  have hfront : ∀ g ∈ front, g.isSeparator = true := List.all_eq_true.mp List.all_takeWhile
  have ht : t = front ++ body := List.takeWhile_append_dropWhile.symm
  obtain ⟨cs, hcs, hplain⟩ := plain_of_continues (t := body.takeWhile Glyph.continuesIdentifier)
    (List.all_eq_true.mp List.all_takeWhile)
  have hbody : body = cs.map .char ++ back := by
    rw [← hcs]
    exact List.takeWhile_append_dropWhile.symm
  have hwords : words (cs.map .char ++ back) = word :: others := by
    rw [← h, ht, words_of_separators hfront, hbody]
  -- A glyph that separates nothing would be in the word, and is none of an identifier.
  have hback : ∀ g ∈ back.head?, g.isSeparator = true := by
    intro g hg
    have hstops : g.continuesIdentifier = false := not_of_mem_head?_dropWhile hg
    cases hseparator : g.isSeparator with
    | true => rfl
    | false =>
      obtain ⟨rest, hrest⟩ := List.head?_eq_some_iff.mp hg
      obtain ⟨more, others', hopen⟩ := words_of_unseparated hplain hseparator rest
      rw [hrest, hopen] at hwords
      have hmem : Glyph.char g.scalar ∈ word := by
        rw [← (List.cons.inj hwords).1]
        simp
      have hcontinues := continues_of_isIdentifier hword _ hmem
      cases g with
      | char c => cases hcontinues.symm.trans hstops
      | stray b => cases hcontinues
  have hne : cs ≠ [] := by
    rintro rfl
    cases hfirst : back.head? with
    | none =>
      rw [List.map_nil, List.nil_append, List.head?_eq_none_iff.mp hfirst] at hwords
      cases hwords
    | some g =>
      have hfirst' : body.head? = some g := by rw [hbody]; exact hfirst
      cases (hback g hfirst).symm.trans (not_of_mem_head?_dropWhile hfirst')
  rw [words_of_plain hplain hne hback] at hwords
  obtain ⟨rfl, rfl⟩ := List.cons.inj hwords
  exact ⟨front, back, by rw [List.append_assoc, ← hbody, ← ht], hfront, rfl⟩

end Text

end LittleComputer
