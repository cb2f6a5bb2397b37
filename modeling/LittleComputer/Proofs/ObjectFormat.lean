import Mathlib.Data.List.Forall2
import LittleComputer.Object.Image
import LittleComputer.Proofs.ByteLine
import LittleComputer.Proofs.NumberGrammar

/-!
# The format of object files

A line of an object file is blank or has one word, which `Text.WritesWord` gives as a grammar. The
reader takes exactly the files of such lines with a word among them. Of any other file it tells the
first line that is neither blank nor a word, or that there is none at all.
-/

namespace LittleComputer

/-! ## Words -/

namespace Text

/-- What a word can start with. -/
def wordMarks : List Text := ["", "0x", "0X"]

/-- The text is a mark, which may be missing, and one or more hexadecimal digits that denote the
word. -/
inductive WritesWord : Text → UInt16 → Prop where
  | marked {mark digits : Text} {w : UInt16} (hmark : mark ∈ wordMarks)
      (hdigits : Digits 16 digits w.toNat) :
      WritesWord (mark ++ digits) w

end Text

namespace Image

theorem exists_dropMark (t : Text) : ∃ mark ∈ Text.wordMarks, t = mark ++ dropMark t := by
  unfold dropMark
  split
  · exact ⟨"0x", by decide, rfl⟩
  · exact ⟨"0X", by decide, rfl⟩
  · exact ⟨"", by decide, rfl⟩

/-- Digits do not go on as a mark does, so that nothing is taken off unmarked ones. -/
theorem dropMark_append {mark digits : Text} {n : Nat} (hmark : mark ∈ Text.wordMarks)
    (hdigits : Text.Digits 16 digits n) : dropMark (mark ++ digits) = digits := by
  have hforeign : ∀ x : Char, (Glyph.char x).digit? 16 = none → .char x ∉ digits := by
    intro x hx hmem
    obtain ⟨d, hd⟩ := hdigits.writes _ hmem
    exact hd.ne (by decide) hx rfl
  have hlower := hforeign 'x' rfl
  have hupper := hforeign 'X' rfl
  simp only [Text.wordMarks, List.mem_cons, List.not_mem_nil, or_false] at hmark
  rcases hmark with rfl | rfl | rfl
  · show dropMark digits = digits
    unfold dropMark
    split
    all_goals simp_all
  · rfl
  · rfl

theorem word?_eq_some {t : Text} {w : UInt16} : word? t = some w ↔ t.WritesWord w := by
  have hw : w.toNat < 65536 := w.toNat_lt
  unfold word?
  constructor
  · intro h
    split at h
    · rename_i n hn
      split at h
      · rename_i hlt
        obtain rfl : UInt16.ofNat n = w := Option.some.inj h
        obtain ⟨mark, hmark, ht⟩ := exists_dropMark t
        rw [ht]
        refine .marked hmark ?_
        rw [UInt16.toNat_ofNat_of_lt' hlt]
        exact (Text.natural?_eq_some (by decide)).mp hn
      · cases h
    · cases h
  · rintro ⟨hmark, hdigits⟩
    rw [dropMark_append hmark hdigits, (Text.natural?_eq_some (by decide)).mpr hdigits]
    simp only [hw, if_true, UInt16.ofNat_toNat]

end Image

namespace Text.WritesWord

variable {t : Text} {v w : UInt16}

theorem unique (hv : t.WritesWord v) (hw : t.WritesWord w) : v = w :=
  Option.some.inj ((Image.word?_eq_some.mpr hv).symm.trans (Image.word?_eq_some.mpr hw))

theorem ne_nil (h : t.WritesWord w) : t ≠ [] := by
  rintro rfl
  cases Image.word?_eq_some.mpr h

end Text.WritesWord

/-! ## Lines -/

/-- A line that the reader takes, once the blanks around it are gone. -/
def IsObjectLine (t : Text) : Prop := t = [] ∨ ∃ w, t.WritesWord w

instance (t : Text) : Decidable (IsObjectLine t) :=
  decidable_of_iff (t = [] ∨ (Image.word? t).isSome = true) <| by
    simp only [IsObjectLine, Option.isSome_iff_exists, Image.word?_eq_some]

/-- Of the lines, `t` is the first one that the reader does not take. `k` lines stand before it. -/
structure FirstOffence (lines : List Text) (k : Nat) (t : Text) : Prop where
  line : lines[k]? = some t
  offends : ¬ IsObjectLine t
  before : ∀ u ∈ lines.take k, IsObjectLine u

section FirstOffence

variable {first : Text} {rest : List Text} {k : Nat} {t : Text}

theorem firstOffence_cons_of_offence (h : ¬ IsObjectLine first) :
    FirstOffence (first :: rest) k t ↔ k = 0 ∧ t = first := by
  constructor
  · intro hoffence
    cases k with
    | zero => exact ⟨rfl, (Option.some.inj hoffence.line).symm⟩
    | succ k => exact absurd (hoffence.before first List.mem_cons_self) h
  · rintro ⟨rfl, rfl⟩
    exact ⟨rfl, h, nofun⟩

theorem firstOffence_cons_of_taken (h : IsObjectLine first) :
    FirstOffence (first :: rest) k t ↔ ∃ j, k = j + 1 ∧ FirstOffence rest j t := by
  constructor
  · intro hoffence
    cases k with
    | zero => exact absurd (Option.some.inj hoffence.line ▸ h) hoffence.offends
    | succ j =>
      exact ⟨j, rfl, hoffence.line, hoffence.offends,
        fun u hu => hoffence.before u (List.mem_cons_of_mem _ hu)⟩
  · rintro ⟨j, rfl, hoffence⟩
    exact ⟨hoffence.line, hoffence.offends, List.forall_mem_cons.mpr ⟨h, hoffence.before⟩⟩

theorem not_firstOffence_nil : ¬ FirstOffence [] k t := fun h => by cases h.line

end FirstOffence

/-! ## The reader -/

namespace Image

variable {line : Text} {lines : List Text} {number : Nat} {seen : List UInt16}

theorem wordsFrom_blank (h : line.trim = []) :
    wordsFrom number (line :: lines) seen = wordsFrom (number + 1) lines seen := by
  simp only [wordsFrom, h, List.isEmpty_nil, if_true]

theorem wordsFrom_word {w : UInt16} (h : line.trim.WritesWord w) :
    wordsFrom number (line :: lines) seen = wordsFrom (number + 1) lines (w :: seen) := by
  have hinked : line.trim.isEmpty = false := List.isEmpty_eq_false_iff.mpr h.ne_nil
  simp only [wordsFrom, hinked, Bool.false_eq_true, if_false, word?_eq_some.mpr h]

theorem wordsFrom_offence (h : ¬ IsObjectLine line.trim) :
    wordsFrom number (line :: lines) seen = .error (.invalidObjectWord number line.trim) := by
  have hinked : line.trim.isEmpty = false :=
    List.isEmpty_eq_false_iff.mpr fun hblank => h (.inl hblank)
  have hword : word? line.trim = none := by
    rw [Option.eq_none_iff_forall_ne_some]
    exact fun w hw => h (.inr ⟨w, word?_eq_some.mp hw⟩)
  simp only [wordsFrom, hinked, Bool.false_eq_true, if_false, hword]

/-- The lines with something on them, without the blanks around it. -/
def inked (lines : List Text) : List Text := (lines.map Text.trim).filter (· ≠ [])

theorem inked_of_blank (h : line.trim = []) : inked (line :: lines) = inked lines := by
  simp [inked, h]

theorem inked_of_ne_nil (h : line.trim ≠ []) :
    inked (line :: lines) = line.trim :: inked lines := by
  simp [inked, h]

theorem wordsFrom_eq_ok {words : List UInt16} : wordsFrom number lines seen = .ok words ↔
    ∃ more, List.Forall₂ Text.WritesWord (inked lines) more ∧
      words = seen.reverse ++ more := by
  induction lines generalizing number seen with
  | nil => simp [wordsFrom, inked, eq_comm]
  | cons line rest ih =>
    by_cases htaken : IsObjectLine line.trim
    · rcases htaken with hblank | ⟨w, hw⟩
      · rw [wordsFrom_blank hblank, ih, inked_of_blank hblank]
      · rw [wordsFrom_word hw, ih, inked_of_ne_nil hw.ne_nil]
        constructor
        · rintro ⟨more, hmore, rfl⟩
          exact ⟨w :: more, .cons hw hmore, by simp⟩
        · rintro ⟨_, hall, rfl⟩
          obtain ⟨v, more, hv, hmore, rfl⟩ := List.forall₂_cons_left_iff.mp hall
          obtain rfl := hw.unique hv
          exact ⟨more, hmore, by simp⟩
    · rw [wordsFrom_offence htaken, inked_of_ne_nil fun hblank => htaken (.inl hblank)]
      refine ⟨nofun, ?_⟩
      rintro ⟨_, hall, -⟩
      obtain ⟨w, _, hw, -⟩ := List.forall₂_cons_left_iff.mp hall
      exact absurd (.inr ⟨w, hw⟩) htaken

theorem wordsFrom_eq_error {fault : Fault} : wordsFrom number lines seen = .error fault ↔
    ∃ k t, FirstOffence (lines.map Text.trim) k t ∧
      fault = .invalidObjectWord ((number + k : Nat) : Int) t := by
  induction lines generalizing number seen with
  | nil =>
    refine ⟨nofun, ?_⟩
    rintro ⟨k, t, hoffence, -⟩
    exact absurd hoffence not_firstOffence_nil
  | cons line rest ih =>
    by_cases htaken : IsObjectLine line.trim
    · -- a line that is taken only moves the numbers on by one
      have hnext : ∃ after, wordsFrom number (line :: rest) seen =
          wordsFrom (number + 1) rest after := by
        rcases htaken with hblank | ⟨w, hw⟩
        · exact ⟨seen, wordsFrom_blank hblank⟩
        · exact ⟨w :: seen, wordsFrom_word hw⟩
      obtain ⟨after, hafter⟩ := hnext
      rw [hafter, ih, List.map_cons]
      simp only [firstOffence_cons_of_taken htaken]
      constructor
      · rintro ⟨j, t, hoffence, rfl⟩
        exact ⟨j + 1, t, ⟨j, rfl, hoffence⟩, by rw [Nat.add_assoc, Nat.add_comm 1 j]⟩
      · rintro ⟨_, t, ⟨j, rfl, hoffence⟩, rfl⟩
        exact ⟨j, t, hoffence, by rw [Nat.add_assoc, Nat.add_comm 1 j]⟩
    · rw [wordsFrom_offence htaken, List.map_cons]
      simp only [firstOffence_cons_of_offence htaken, Except.error.injEq]
      constructor
      · rintro rfl
        exact ⟨0, _, ⟨rfl, rfl⟩, rfl⟩
      · rintro ⟨_, _, ⟨rfl, rfl⟩, rfl⟩
        rfl

theorem read_eq_ok {input : Input} (hfault : input.read.fault = none) {i : Image} :
    read input = .ok i ↔ wordsFrom 1 input.read.lines [] = .ok (i.origin :: i.words) := by
  unfold read
  simp only [hfault]
  cases wordsFrom 1 input.read.lines [] with
  | error fault => exact ⟨nofun, nofun⟩
  | ok words =>
    cases words with
    | nil => exact ⟨nofun, nofun⟩
    | cons origin words =>
      simp only [Except.ok.injEq, List.cons.injEq]
      exact ⟨fun h => h ▸ ⟨rfl, rfl⟩, fun ⟨horigin, hwords⟩ => by
        rw [horigin, hwords]⟩

theorem read_eq_error {input : Input} (hfault : input.read.fault = none) {fault : Fault} :
    read input = .error fault ↔
      wordsFrom 1 input.read.lines [] = .ok [] ∧ fault = .emptyObject ∨
      wordsFrom 1 input.read.lines [] = .error fault := by
  unfold read
  simp only [hfault]
  cases wordsFrom 1 input.read.lines [] with
  | error fault => simp
  | ok words =>
    cases words with
    | nil => simp [eq_comm]
    | cons origin words => simp

end Image

/-- The reader takes exactly the format of object files. Let all lines of a file be short enough to
be read, and let `lines` be these lines without the blanks around them. The file is read if at least
one of them is not empty and all that are not empty are words; the words are the origin and those
behind it in their order. Otherwise the fault is that every line is blank, or it tells the first
line that is not as it should be, with its number. -/
theorem object_reader_takes_format (bytes : List UInt8)
    (hshort : ∀ line ∈ byteLines bytes, line.length < lineLimit) :
    let lines := (byteLines bytes).map fun line => (Text.ofBytes line).trim
    let outcome := Image.read ⟨.ofBytes bytes, false⟩
    ((∃ i, outcome = .ok i) ↔ (∃ t ∈ lines, t ≠ []) ∧ ∀ t ∈ lines, t ≠ [] →
      ∃ w, t.WritesWord w) ∧
    (∀ i : Image, outcome = .ok i ↔
      List.Forall₂ Text.WritesWord (lines.filter (· ≠ [])) (i.origin :: i.words)) ∧
    ∀ fault, outcome = .error fault ↔ (∀ t ∈ lines, t = []) ∧ fault = .emptyObject ∨
      ∃ k t, FirstOffence lines k t ∧ fault = .invalidObjectWord ((k : Int) + 1) t := by
  intro lines outcome
  have hread := Input.read_ofBytes hshort
  have hlines : (Input.read ⟨.ofBytes bytes, false⟩).lines.map Text.trim = lines := by
    rw [hread, List.map_map]
    exact List.map_congr_left fun line _ => Text.trim_dropReturn _
  have hfault : (Input.read ⟨.ofBytes bytes, false⟩).fault = none := by rw [hread]
  have hok : ∀ i : Image, outcome = .ok i ↔
      List.Forall₂ Text.WritesWord (lines.filter (· ≠ [])) (i.origin :: i.words) := by
    intro i
    rw [Image.read_eq_ok hfault, Image.wordsFrom_eq_ok, Image.inked, hlines]
    simp
  have herror : ∀ fault, outcome = .error fault ↔
      (∀ t ∈ lines, t = []) ∧ fault = .emptyObject ∨
      ∃ k t, FirstOffence lines k t ∧ fault = .invalidObjectWord ((k : Int) + 1) t := by
    intro fault
    rw [Image.read_eq_error hfault, Image.wordsFrom_eq_ok, Image.wordsFrom_eq_error, Image.inked,
      hlines]
    simp [Int.add_comm]
  refine ⟨⟨?_, ?_⟩, hok, herror⟩
  · rintro ⟨i, hi⟩
    have hall := (hok i).mp hi
    obtain ⟨t, rest, -, -, hfirst⟩ := List.forall₂_cons_right_iff.mp hall
    have hwords : ∀ t ∈ lines.filter (· ≠ []), ∃ w, Text.WritesWord t w :=
      ((List.forall₂_and_left (p := fun t : Text => ∃ w, t.WritesWord w) _ _).mp
        (hall.imp fun t w hw => ⟨⟨w, hw⟩, hw⟩)).1
    have hmem : ∀ {t}, t ∈ lines.filter (· ≠ []) ↔ t ∈ lines ∧ t ≠ [] := by simp
    obtain ⟨ht, hinked⟩ := hmem.mp (hfirst ▸ List.mem_cons_self)
    exact ⟨⟨t, ht, hinked⟩, fun t ht hinked => hwords t (hmem.mpr ⟨ht, hinked⟩)⟩
  · rintro ⟨⟨t, ht, hinked⟩, hwords⟩
    cases houtcome : outcome with
    | ok i => exact ⟨i, rfl⟩
    | error fault =>
      rcases (herror fault).mp houtcome with ⟨hblank, -⟩ | ⟨k, u, hoffence, -⟩
      · exact absurd (hblank t ht) hinked
      · refine absurd ?_ hoffence.offends
        by_cases hu : u = []
        · exact .inl hu
        · exact .inr (hwords u (List.mem_of_getElem? hoffence.line) hu)

/-- Blank lines, carriage returns, a blank beyond ASCII, both cases of the mark and zeros in front
are all taken, and a last line without an end too. A second mark is not. -/
theorem object_reader_takes_format_blanks :
    let good : List UInt8 := Text.toBytes "\r\n\t0X3000 \r\n\n\u00A00000f025"
    let bad : List UInt8 := Text.toBytes "\n0x3000\r\n 0x0x25 \nHALT\n"
    (∀ line ∈ byteLines good, line.length < lineLimit) ∧
      Image.read ⟨.ofBytes good, false⟩ = .ok ⟨0x3000, [0xF025]⟩ ∧
      (∀ line ∈ byteLines bad, line.length < lineLimit) ∧
      Image.read ⟨.ofBytes bad, false⟩ = .error (.invalidObjectWord 3 "0x0x25") := by
  intro good bad
  have hgood : ∀ line ∈ byteLines good, line.length < lineLimit := by decide
  have hbad : ∀ line ∈ byteLines bad, line.length < lineLimit := by decide
  obtain ⟨-, hok, -⟩ := object_reader_takes_format good hgood
  obtain ⟨-, -, herror⟩ := object_reader_takes_format bad hbad
  refine ⟨hgood, (hok ⟨0x3000, [0xF025]⟩).mpr ?_, hbad,
    (herror _).mpr (.inr ⟨2, "0x0x25", ?_, rfl⟩)⟩
  · have hinked : ((byteLines good).map fun line => (Text.ofBytes line).trim).filter (· ≠ []) =
        ["0X3000", "0000f025"] := by decide
    rw [hinked]
    exact .cons (Image.word?_eq_some.mp (by decide))
      (.cons (Image.word?_eq_some.mp (by decide)) .nil)
  · exact ⟨by decide, by decide, by decide⟩

end LittleComputer
