import LittleComputer.Proofs.Bytes
import LittleComputer.Proofs.Label
import LittleComputer.Source.Input

/-!
# Reading back what was written

Three ways back from a text: from its bytes, from its lines, and from the blanks around it. Bytes
are only followed here for ASCII, where every character is one byte.
-/

namespace LittleComputer

/-- A character of ASCII, which is written as one byte. -/
def Glyph.isAscii : Glyph → Bool
  | .char c => c.toNat < 128
  | .stray _ => false

namespace Text

/-! ## Bytes -/

theorem bytes_of_ascii {c : Char} (hc : c.toNat < 128) :
    (Glyph.char c).bytes = [UInt8.ofNat c.toNat] :=
  ascii_of_numbers (p := fun c => (Glyph.char c).bytes = [UInt8.ofNat c.toNat]) (by decide) c hc

theorem lead?_of_ascii {c : Char} (hc : c.toNat < 128) (rest : List UInt8) :
    lead? (UInt8.ofNat c.toNat) rest = some (c, 0) := by
  have hbyte : (UInt8.ofNat c.toNat).toNat = c.toNat :=
    UInt8.toNat_ofNat_of_lt' (by simp only [UInt8.size]; omega)
  have hscalar : scalarFrom? 0 c.toNat = some c := by
    unfold scalarFrom?
    rw [dif_pos ⟨Nat.zero_le _, c.valid⟩]
    rfl
  unfold lead?
  simp only [hbyte, hc, if_true, hscalar, Option.map_some]

theorem toBytes_of_ascii {g : Glyph} (hg : g.isAscii = true) (rest : Text) :
    ∃ c : Char, g = .char c ∧ c.toNat < 128 ∧
      toBytes (g :: rest) = UInt8.ofNat c.toNat :: toBytes rest := by
  cases g with
  | stray b => cases hg
  | char c =>
    have hc : c.toNat < 128 := of_decide_eq_true hg
    refine ⟨c, rfl, hc, ?_⟩
    rw [toBytes_cons, bytes_of_ascii hc]
    rfl

/-- A text of ASCII can be read back from its bytes. -/
theorem ofBytes_toBytes {t : Text} (h : ∀ g ∈ t, g.isAscii = true) : ofBytes t.toBytes = t := by
  induction t with
  | nil => rfl
  | cons g rest ih =>
    obtain ⟨c, rfl, hc, hbytes⟩ := toBytes_of_ascii (h g List.mem_cons_self) rest
    rw [hbytes, ofBytes_of_lead (lead?_of_ascii hc _), List.drop_zero,
      ih fun g hg => h g (List.mem_cons_of_mem _ hg)]

theorem width_of_ascii {t : Text} (h : ∀ g ∈ t, g.isAscii = true) : t.width = t.length := by
  rw [width_eq_length]
  induction t with
  | nil => rfl
  | cons g rest ih =>
    obtain ⟨c, -, -, hbytes⟩ := toBytes_of_ascii (h g List.mem_cons_self) rest
    rw [hbytes, List.length_cons, List.length_cons, ih fun g hg => h g (List.mem_cons_of_mem _ hg)]

/-! ## Blanks -/

/-- Trimming takes the blanks behind a text that neither starts nor ends with one. -/
theorem trim_append {t blanks : Text} (hfirst : ∀ g ∈ t.head?, g.isBlank = false)
    (hlast : ∀ g ∈ t.getLast?, g.isBlank = false)
    (hblanks : ∀ g ∈ blanks, g.isBlank = true) :
    trim (t ++ blanks) = t := by
  have hkeep : ∀ s : Text, (∀ g ∈ s.head?, g.isBlank = false) →
      s.dropWhile Glyph.isBlank = s := by
    intro s hs
    cases s with
    | nil => rfl
    | cons g rest => exact List.dropWhile_cons_of_neg (by simp [hs g rfl])
  have hbehind : (t ++ blanks).reverse.dropWhile Glyph.isBlank = t.reverse := by
    rw [List.reverse_append,
      List.dropWhile_append_of_pos fun g hg => hblanks g (List.mem_reverse.mp hg)]
    exact hkeep t.reverse (by rw [List.head?_reverse]; exact hlast)
  unfold trim
  cases t with
  | nil =>
    have hall : (blanks ++ []).dropWhile Glyph.isBlank = [] := List.dropWhile_append_of_pos hblanks
    rw [List.append_nil] at hall
    rw [List.nil_append, hall]
    rfl
  | cons g rest =>
    rw [hkeep (g :: rest ++ blanks) (fun g' hg' => hfirst g' hg'), hbehind, List.reverse_reverse]

theorem trim_of_unblank {t : Text} (h : ∀ g ∈ t, g.isBlank = false) : t.trim = t := by
  have htrim : trim (t ++ []) = t := trim_append (fun g hg => h g (List.mem_of_mem_head? hg))
    (fun g hg => h g (List.mem_of_getLast? hg)) nofun
  rwa [List.append_nil] at htrim

theorem trim_append_blank (t : Text) {g : Glyph} (hg : g.isBlank = true) :
    trim (t ++ [g]) = t.trim := by
  unfold trim
  rw [List.dropWhile_append]
  split
  · rename_i hblank
    rw [List.isEmpty_iff.mp hblank, List.dropWhile_cons_of_pos hg]
    rfl
  · rw [List.reverse_append, List.reverse_singleton, List.singleton_append,
      List.dropWhile_cons_of_pos hg]

theorem not_of_mem_head?_dropWhile {p : Glyph → Bool} {t : Text} {g : Glyph}
    (hg : g ∈ (t.dropWhile p).head?) : p g = false := by
  have hstops := List.head?_dropWhile_not p t
  rw [Option.mem_def.mp hg] at hstops
  simpa using hstops

theorem getLast?_trim (t : Text) : ∀ g ∈ t.trim.getLast?, g.isBlank = false := by
  intro g hg
  unfold trim at hg
  rw [List.getLast?_reverse] at hg
  exact not_of_mem_head?_dropWhile hg

/-- Trimming only takes blanks. -/
theorem exists_trim (t : Text) :
    ∃ before behind : Text, t = before ++ t.trim ++ behind ∧
      (∀ g ∈ before, g.isBlank = true) ∧
      ∀ g ∈ behind, g.isBlank = true := by
  let rest := t.dropWhile Glyph.isBlank
  have hrest : t.trim ++ (rest.reverse.takeWhile Glyph.isBlank).reverse = rest := by
    unfold trim
    rw [← List.reverse_append, List.takeWhile_append_dropWhile, List.reverse_reverse]
  refine ⟨t.takeWhile Glyph.isBlank, (rest.reverse.takeWhile Glyph.isBlank).reverse, ?_, ?_, ?_⟩
  · rw [List.append_assoc, hrest, List.takeWhile_append_dropWhile]
  · exact List.all_eq_true.mp List.all_takeWhile
  · intro g hg
    exact List.all_eq_true.mp List.all_takeWhile g (List.mem_reverse.mp hg)

/-! ## Lines -/

theorem cutLinesFrom_line {line : Text} (h : ∀ g ∈ line, g.is '\n' = false) (rest before : Text)
    (seen : List Text) :
    cutLinesFrom (line ++ .char '\n' :: rest) before seen =
      cutLinesFrom rest [] ((before.reverse ++ line) :: seen) := by
  induction line generalizing before with
  | nil => simp [cutLinesFrom]
  | cons g line ih =>
    have hg := h g List.mem_cons_self
    have hline : ∀ g ∈ line, g.is '\n' = false := fun g hg => h g (List.mem_cons_of_mem _ hg)
    rw [List.cons_append, cutLinesFrom, hg]
    simp only [Bool.false_eq_true, if_false]
    rw [ih hline]
    simp

theorem cutLinesFrom_seen (t line : Text) (seen : List Text) :
    cutLinesFrom t line seen = seen.reverse ++ cutLinesFrom t line [] := by
  induction t generalizing line seen with
  | nil =>
    cases line with
    | nil => simp [cutLinesFrom]
    | cons g line => simp [cutLinesFrom]
  | cons g rest ih =>
    simp only [cutLinesFrom]
    split
    · rw [ih [] (line.reverse :: seen), ih [] [line.reverse]]
      simp
    · exact ih (g :: line) seen

theorem cutLines_ended {line : Text} (h : ∀ g ∈ line, g.is '\n' = false) (rest : Text) :
    cutLines (line ++ .char '\n' :: rest) = line :: cutLines rest := by
  unfold cutLines
  rw [cutLinesFrom_line h, cutLinesFrom_seen]
  rfl

/-- Lines of which each ends with a newline are cut again where they were put together. -/
theorem cutLines_flatMap {lines : List Text}
    (h : ∀ line ∈ lines, ∀ g ∈ line, g.is '\n' = false) :
    cutLines (lines.flatMap (· ++ [.char '\n'])) = lines := by
  induction lines with
  | nil => rfl
  | cons line rest ih =>
    rw [List.flatMap_cons, List.append_assoc, List.singleton_append,
      cutLines_ended (h line List.mem_cons_self),
        ih fun line hline => h line (List.mem_cons_of_mem _ hline)]

theorem dropReturn_of_last {t : Text} (h : ∀ g ∈ t.getLast?, g.is '\r' = false) :
    t.dropReturn = t := by
  unfold dropReturn
  split
  · rename_i g rest hreverse
    have hlast : t.getLast? = some g := by rw [← List.head?_reverse, hreverse]; rfl
    have hg : g.is '\r' = false := h g hlast
    rw [if_neg (by rw [hg]; exact Bool.false_ne_true)]
  · rfl

theorem dropReturn_return (t : Text) : dropReturn (t ++ [.char '\r']) = t := by
  unfold dropReturn
  rw [List.reverse_append]
  simp

/-- A carriage return is a blank, so trimming takes it off as well. -/
theorem trim_dropReturn (t : Text) : t.dropReturn.trim = t.trim := by
  by_cases hreturn : ∃ front, t = front ++ [.char '\r']
  · obtain ⟨front, rfl⟩ := hreturn
    rw [dropReturn_return, trim_append_blank front (by decide)]
  · rw [dropReturn_of_last]
    intro g hg
    rw [Bool.eq_false_iff]
    intro hsame
    rw [(Glyph.is_iff g '\r').mp hsame] at hg
    exact hreturn (List.getLast?_eq_some_iff.mp hg)

end Text

theorem Glyph.is_of_unblank {g : Glyph} (hg : g.isBlank = false) {c : Char}
    (hc : LittleComputer.isBlank c = true) : g.is c = false := by
  cases hsame : g.is c with
  | false => rfl
  | true =>
    rw [(Glyph.is_iff g c).mp hsame] at hg
    cases hc.symm.trans hg

/-- A text whose lines are short enough is read line by line, each without the carriage return at
its end. -/
theorem Input.read_of_readable {text : Text}
    (h : ∀ line ∈ text.cutLines, line.isReadableLine = true) :
    Input.read ⟨text, false⟩ = ⟨text.cutLines.map Text.dropReturn, none⟩ := by
  have hall : text.cutLines.all Text.isReadableLine = true := List.all_eq_true.mpr h
  have htake : (text.cutLines ++ []).takeWhile Text.isReadableLine = text.cutLines ++ [] :=
    List.takeWhile_append_of_pos h
  rw [List.append_nil] at htake
  unfold Input.read
  simp only [htake, hall, if_true, Bool.false_eq_true, if_false]

/-- Lines that are short enough and end with no carriage return are read as they were written. -/
theorem Input.read_lines {lines : List Text}
    (hnewline : ∀ line ∈ lines, ∀ g ∈ line, g.is '\n' = false)
    (hreturn : ∀ line ∈ lines, ∀ g ∈ line.getLast?, g.is '\r' = false)
    (hshort : ∀ line ∈ lines, line.isReadableLine = true) :
    Input.read ⟨lines.flatMap (· ++ [.char '\n']), false⟩ = ⟨lines, none⟩ := by
  have hkeep : lines.map Text.dropReturn = lines := by
    have hmap := List.map_congr_left (f := Text.dropReturn) (g := id)
      fun line hline => Text.dropReturn_of_last (hreturn line hline)
    rwa [List.map_id] at hmap
  have hcut := Text.cutLines_flatMap hnewline
  rw [Input.read_of_readable (by rw [hcut]; exact hshort), hcut, hkeep]

/-- Lines without blanks that are short enough are read as they were written. -/
theorem Input.read_flatMap {lines : List Text}
    (hblank : ∀ line ∈ lines, ∀ g ∈ line, g.isBlank = false)
    (hshort : ∀ line ∈ lines, line.isReadableLine = true) :
    (Input.read ⟨lines.flatMap (· ++ [.char '\n']), false⟩) = ⟨lines, none⟩ := by
  refine Input.read_lines (fun line hline g hg => ?_) (fun line hline g hg => ?_) hshort
  · exact Glyph.is_of_unblank (hblank line hline g hg) (by decide)
  · exact Glyph.is_of_unblank (hblank line hline g (List.mem_of_getLast? hg)) (by decide)

end LittleComputer
