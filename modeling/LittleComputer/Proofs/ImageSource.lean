import LittleComputer.Proofs.LabelAddress
import LittleComputer.Proofs.Listing
import LittleComputer.Proofs.Reading
import LittleComputer.Proofs.Scan

/-!
# Sources that spell out an image

An image can be written down word by word: a line for the origin, then a line of `.FILL` for each
word, all numbers as four hexadecimal digits. Such a source gives the image back as long as its last
word ends at the end of the address space or before it, and the first word that does not is where
assembling fails.
-/

namespace LittleComputer

open Outcome

/-! ## A keyword with one operand -/

/-- A line that consists of a keyword, a blank and an operand. -/
def operandLine (keyword operand : List Char) : Text :=
  keyword.map .char ++ .char ' ' :: operand.map .char

section OperandLine

variable {keyword operand : List Char} (hkeyword : ∀ c ∈ keyword, isPlain c = true)
  (hoperand : ∀ c ∈ operand, isPlain c = true)

include hkeyword hoperand

/-- The blank between the two words is the only character of the line that is not plain. -/
theorem is_of_operandLine {x : Char} (hx : isPlain x = false) (hblank : x ≠ ' ') {g : Glyph}
    (hg : g ∈ operandLine keyword operand) : g.is x = false := by
  have hspace : (Glyph.char ' ').is x = false := by simpa [Glyph.is] using hblank.symm
  rcases List.mem_append.mp hg with hg | hg
  · exact Glyph.is_of_plain hkeyword hx g hg
  · rcases List.mem_cons.mp hg with rfl | hg
    · exact hspace
    · exact Glyph.is_of_plain hoperand hx g hg

theorem stripComment_operandLine :
    (operandLine keyword operand).stripComment = operandLine keyword operand := by
  refine Text.stripComment_of_unquoted fun g hg => ⟨?_, ?_⟩
  · exact is_of_operandLine hkeyword hoperand (by decide) (by decide) hg
  · exact is_of_operandLine hkeyword hoperand (by decide) (by decide) hg

theorem splitLabel?_operandLine : (operandLine keyword operand).splitLabel? = none := by
  have hall : ∀ g ∈ operandLine keyword operand, Text.isLabelGlyph g = true := by
    intro g hg
    unfold Text.isLabelGlyph
    rw [is_of_operandLine hkeyword hoperand (x := '"') (by decide) (by decide) hg,
      is_of_operandLine hkeyword hoperand (x := '(') (by decide) (by decide) hg,
      is_of_operandLine hkeyword hoperand (x := ':') (by decide) (by decide) hg]
    rfl
  have hnone : (operandLine keyword operand ++ []).dropWhile Text.isLabelGlyph = [] :=
    List.dropWhile_append_of_pos hall
  rw [List.append_nil] at hnone
  unfold Text.splitLabel?
  rw [hnone]

variable (hk : keyword ≠ []) (ho : operand ≠ [])

include hk ho

theorem trim_operandLine : (operandLine keyword operand).trim = operandLine keyword operand := by
  have htrim : Text.trim (operandLine keyword operand ++ []) = operandLine keyword operand := by
    refine Text.trim_append (fun g hg => ?_) (fun g hg => ?_) nofun
    · obtain ⟨c, rest, rfl⟩ := List.exists_cons_of_ne_nil hk
      cases hg
      exact Glyph.isBlank_of_plain hkeyword _ List.mem_cons_self
    · have hlast : (operandLine keyword operand).getLast? = (operand.map Glyph.char).getLast? := by
        obtain ⟨c, rest, rfl⟩ := List.exists_cons_of_ne_nil ho
        simp [operandLine, List.getLast?_cons]
      rw [hlast] at hg
      exact Glyph.isBlank_of_plain hoperand g (List.mem_of_getLast? hg)
  rwa [List.append_nil] at htrim

theorem words_operandLine :
    (operandLine keyword operand).words = [keyword.map .char, operand.map .char] := by
  have hblank : ∀ g ∈ (Glyph.char ' ' :: operand.map .char).head?, g.isSeparator = true := by
    rintro _ ⟨⟩
    decide
  have hlast : Text.words (operand.map .char ++ []) = operand.map .char :: Text.words [] :=
    Text.words_of_plain hoperand ho nofun
  rw [List.append_nil] at hlast
  unfold operandLine
  rw [Text.words_of_plain hkeyword hk hblank, Text.words_cons_separator (by decide), hlast]
  rfl

/-- The line is a statement of its keyword with its operand. -/
theorem ofLine_operandLine {m : Mnemonic} (hm : Mnemonic.ofWord? (keyword.map .char) = some m)
    (implicitLabels : Bool) (number : Int) :
    Statement.ofLine implicitLabels ⟨number, operandLine keyword operand⟩ =
      .ok (some ⟨⟨number, operandLine keyword operand⟩, none, .keyword m,
        [operand.map .char]⟩) := by
  have hnonempty : (operandLine keyword operand).isEmpty = false := by
    unfold operandLine
    cases keyword <;> rfl
  unfold Statement.ofLine
  simp only [stripComment_operandLine hkeyword hoperand, trim_operandLine hkeyword hoperand hk ho,
    hnonempty, Bool.false_eq_true, if_false, splitLabel?_operandLine hkeyword hoperand,
    words_operandLine hkeyword hoperand hk ho, Statement.ofWords, hm]
  rfl

end OperandLine

/-! ## Words as four digits -/

theorem Scope.number_of_denoted [Interpreter] {scope : Scope} {word : Text} {v : Int}
    (hexpression : word.expression? = none)
    (hdenoted : word.denoted? = some v) (hfits : fitsInt64 v = true) :
    scope.number word = .ok v := by
  have hliteral : word.literal? = some v := by
    unfold Text.literal?
    rw [hdenoted]
    simp [Option.filter, hfits]
  unfold number
  rw [hexpression, hliteral]

/-- A field of sixteen bits that takes all words keeps them as they are. -/
theorem Field.pack_word {least greatest : Int} (hleast : least ≤ 0)
    (hgreatest : 65535 ≤ greatest)
    (w : UInt16) : UInt16.ofBitVec <$> pack ⟨16, least, greatest⟩ w.toNat = .ok w := by
  have hw : w.toNat < 65536 := w.toNat_lt
  have haccepts : Accepts ⟨16, least, greatest⟩ w.toNat := by
    unfold Accepts
    simp only
    omega
  unfold pack
  rw [if_pos haccepts]
  show Except.ok (UInt16.ofBitVec (BitVec.ofInt 16 w.toNat)) = .ok w
  simp

/-- A word as four hexadecimal digits, each of them in either case. -/
structure HexNumeral where
  word : UInt16
  digits : List Char
  spelled : digits.map Char.toUpper = hexWord word

/-- The letters of hexadecimal digits have an upper and a lower form, and both count the same. -/
theorem digit_of_toUpper {c : Char} {n : Nat} (hn : n < 16) (h : c.toUpper = hexDigit n) :
    (Glyph.char c).digit? 16 = some n ∧ isPlain c = true ∧ c.toNat < 128 := by
  have htable : ∀ n < 16, ∀ k < 128, (Char.ofNat k).toUpper = hexDigit n →
      (Glyph.char (Char.ofNat k)).digit? 16 = some n ∧ isPlain (Char.ofNat k) = true := by
    decide +kernel
  have hascii : c.toNat < 128 := by
    have hdigit : ∀ n < 16, (hexDigit n).toNat < 128 := by decide +kernel
    have hupper : c.toUpper.toNat < 128 := by rw [h]; exact hdigit n hn
    unfold Char.toUpper at hupper
    split at hupper
    · rename_i hsmall
      have hz : c.toNat ≤ 122 := UInt32.le_iff_toNat_le.mp hsmall.2
      omega
    · exact hupper
  obtain ⟨hvalue, hplain⟩ := ascii_of_numbers
    (p := fun c => c.toUpper = hexDigit n →
      (Glyph.char c).digit? 16 = some n ∧ isPlain c = true)
    (htable n hn) c hascii h
  exact ⟨hvalue, hplain, hascii⟩

namespace HexNumeral

variable (numeral : HexNumeral)

/-- The numeral as an operand: `x` and the digits. -/
def operand : List Char := 'x' :: numeral.digits

def text : Text := numeral.operand.map .char

theorem digits_eq : ∃ a b c d : Char, numeral.digits = [a, b, c, d] ∧
    a.toUpper = hexDigit (numeral.word.toNat / 4096) ∧
    b.toUpper = hexDigit (numeral.word.toNat / 256 % 16) ∧
    c.toUpper = hexDigit (numeral.word.toNat / 16 % 16) ∧
    d.toUpper = hexDigit (numeral.word.toNat % 16) := by
  have hspelled := numeral.spelled
  unfold hexWord at hspelled
  simp only [List.map_eq_cons_iff, List.map_eq_nil_iff] at hspelled
  obtain ⟨a, _, ha, ha', b, _, hb, hb', c, _, hc, hc', d, _, hd, hd', rfl⟩ := hspelled
  subst hd hc hb
  exact ⟨a, b, c, d, ha, ha', hb', hc', hd'⟩

theorem plain_operand : ∀ c ∈ numeral.operand, isPlain c = true ∧ c.toNat < 128 := by
  obtain ⟨a, b, c, d, hdigits, ha, hb, hc, hd⟩ := numeral.digits_eq
  have hw : numeral.word.toNat < 65536 := numeral.word.toNat_lt
  unfold operand
  rw [hdigits]
  intro x hx
  simp only [List.mem_cons, List.not_mem_nil, or_false] at hx
  rcases hx with rfl | rfl | rfl | rfl | rfl
  · decide
  · exact (digit_of_toUpper (by omega) ha).2
  · exact (digit_of_toUpper (by omega) hb).2
  · exact (digit_of_toUpper (by omega) hc).2
  · exact (digit_of_toUpper (by omega) hd).2

theorem natural?_digits :
    Text.natural? 16 (numeral.digits.map .char) = some numeral.word.toNat := by
  obtain ⟨a, b, c, d, hdigits, ha, hb, hc, hd⟩ := numeral.digits_eq
  have hw : numeral.word.toNat < 65536 := numeral.word.toNat_lt
  have hthousands := (digit_of_toUpper (by omega) ha).1
  have hhundreds := (digit_of_toUpper (by omega) hb).1
  have htens := (digit_of_toUpper (by omega) hc).1
  have hones := (digit_of_toUpper (by omega) hd).1
  rw [hdigits]
  simp only [List.map_cons, List.map_nil, Text.natural?, List.isEmpty_cons, Bool.false_eq_true,
    if_false, Text.naturalFrom?, hthousands, hhundreds, htens, hones, Option.some_inj]
  omega

theorem denoted?_text : numeral.text.denoted? = some (numeral.word.toNat : Int) := by
  obtain ⟨a, b, c, d, hdigits, ha, -⟩ := numeral.digits_eq
  have hw : numeral.word.toNat < 65536 := numeral.word.toNat_lt
  obtain ⟨hvalue, -⟩ := digit_of_toUpper (by omega) ha
  have hsign : ∀ x ∈ ['-', '+'], (Glyph.char a).is x = false := by
    intro x hx
    cases hsame : (Glyph.char a).is x with
    | false => rfl
    | true =>
      rw [(Glyph.is_iff _ _).mp hsame] at hvalue
      rcases List.mem_cons.mp hx with rfl | hx
      · cases hvalue
      · cases List.mem_singleton.mp hx
        cases hvalue
  have hnatural := numeral.natural?_digits
  have hbase : numeral.text.splitBase = (16, numeral.digits.map .char) := rfl
  unfold Text.denoted?
  rw [hbase]
  simp only
  rw [hdigits, List.map_cons] at hnatural ⊢
  unfold Text.integer?
  simp only [hsign '-' (by decide), hsign '+' (by decide), Bool.false_eq_true, if_false, hnatural]
  rfl

theorem number_text [Interpreter] (scope : Scope) :
    scope.number numeral.text = .ok (numeral.word.toNat : Int) := by
  have hw : numeral.word.toNat < 65536 := numeral.word.toNat_lt
  refine Scope.number_of_denoted rfl numeral.denoted?_text ?_
  unfold fitsInt64
  simp only [Bool.and_eq_true, decide_eq_true_eq]
  omega

theorem immediate_text [Interpreter] (scope : Scope) {least greatest : Int} (hleast : least ≤ 0)
    (hgreatest : 65535 ≤ greatest) :
    UInt16.ofBitVec <$> scope.immediate ⟨16, least, greatest⟩ numeral.text =
      .ok numeral.word := by
  unfold Scope.immediate
  rw [numeral.number_text]
  exact Field.pack_word hleast hgreatest numeral.word

/-! ## The lines of an image -/

/-- The line that sets the origin to the word. -/
def originLine : Text := (".ORIG x" : Text) ++ numeral.digits.map .char

/-- The line that places the word. -/
def fillLine : Text := (".FILL x" : Text) ++ numeral.digits.map .char

theorem originLine_eq :
    numeral.originLine = operandLine ['.', 'O', 'R', 'I', 'G'] numeral.operand := rfl

theorem fillLine_eq :
    numeral.fillLine = operandLine ['.', 'F', 'I', 'L', 'L'] numeral.operand := rfl

/-- The statement of the line that sets the origin. -/
def orig (number : Int) : Statement :=
  ⟨⟨number, numeral.originLine⟩, none, .keyword .orig, [numeral.text]⟩

/-- The statement of the line that places the word. -/
def fill (number : Int) : Statement :=
  ⟨⟨number, numeral.fillLine⟩, none, .keyword .fill, [numeral.text]⟩

theorem operand_ne_nil : numeral.operand ≠ [] := nofun

theorem ofLine_originLine (implicitLabels : Bool) (number : Int) :
    Statement.ofLine implicitLabels ⟨number, numeral.originLine⟩ =
      .ok (some (numeral.orig number)) := by
  have hkeyword : Mnemonic.ofWord? (['.', 'O', 'R', 'I', 'G'].map .char) = some .orig := by
    decide +kernel
  rw [originLine_eq]
  exact ofLine_operandLine (List.all_eq_true.mp (by decide))
    (fun c hc => (numeral.plain_operand c hc).1) (by decide)
    numeral.operand_ne_nil hkeyword implicitLabels number

theorem ofLine_fillLine (implicitLabels : Bool) (number : Int) :
    Statement.ofLine implicitLabels ⟨number, numeral.fillLine⟩ =
      .ok (some (numeral.fill number)) := by
  have hkeyword : Mnemonic.ofWord? (['.', 'F', 'I', 'L', 'L'].map .char) = some .fill := by
    decide +kernel
  rw [fillLine_eq]
  exact ofLine_operandLine (List.all_eq_true.mp (by decide))
    (fun c hc => (numeral.plain_operand c hc).1) (by decide)
    numeral.operand_ne_nil hkeyword implicitLabels number

/-- A line of a keyword and a numeral can be read: it holds no line end and is short. -/
theorem readable_operandLine {keyword : List Char}
    (hkeyword : keyword.all (fun c => isPlain c && decide (c.toNat < 128)) = true)
    (hlength : keyword.length ≤ 5) :
    (∀ x ∈ ['\n', '\r'], ∀ g ∈ operandLine keyword numeral.operand, g.is x = false) ∧
      (operandLine keyword numeral.operand).isReadableLine = true := by
  simp only [List.all_eq_true, Bool.and_eq_true, decide_eq_true_eq] at hkeyword
  have hplain : ∀ c ∈ keyword, isPlain c = true := fun c hc => (hkeyword c hc).1
  have hoperand : ∀ c ∈ numeral.operand, isPlain c = true :=
    fun c hc => (numeral.plain_operand c hc).1
  constructor
  · intro x hx g hg
    rcases List.mem_cons.mp hx with rfl | hx
    · exact is_of_operandLine hplain hoperand (by decide) (by decide) hg
    · cases List.mem_singleton.mp hx
      exact is_of_operandLine hplain hoperand (by decide) (by decide) hg
  · obtain ⟨a, b, c, d, hdigits, -⟩ := numeral.digits_eq
    have hall : ∀ g ∈ operandLine keyword numeral.operand, g.isAscii = true := by
      intro g hg
      rcases List.mem_append.mp hg with hg | hg
      · obtain ⟨c, hc, rfl⟩ := List.mem_map.mp hg
        exact decide_eq_true (hkeyword c hc).2
      · rcases List.mem_cons.mp hg with rfl | hg
        · rfl
        · obtain ⟨c, hc, rfl⟩ := List.mem_map.mp hg
          exact decide_eq_true (numeral.plain_operand c hc).2
    have hsize : (operandLine keyword numeral.operand).length ≤ 11 := by
      simp only [operandLine, operand, hdigits, List.length_append, List.length_cons,
        List.length_map, List.length_nil]
      omega
    unfold Text.isReadableLine lineLimit
    rw [Text.width_of_ascii hall, decide_eq_true_eq]
    omega

end HexNumeral

/-- The lines that spell out an image. -/
def imageLines (origin : HexNumeral) (words : List HexNumeral) : List Text :=
  origin.originLine :: words.map HexNumeral.fillLine

/-- The source that spells out an image. -/
def imageSource (origin : HexNumeral) (words : List HexNumeral) : Text :=
  (imageLines origin words).flatMap (· ++ [.char '\n'])

/-- Statements that place words, on lines numbered from `first` on. -/
def fills (first : Nat) (words : List HexNumeral) : List Statement :=
  (words.zipIdx first).map fun (word, number) => word.fill number

theorem fills_cons (first : Nat) (word : HexNumeral) (rest : List HexNumeral) :
    fills first (word :: rest) = word.fill first :: fills (first + 1) rest := rfl

theorem read_imageSource (origin : HexNumeral) (words : List HexNumeral) :
    Input.read ⟨imageSource origin words, false⟩ = ⟨imageLines origin words, none⟩ := by
  have hline : ∀ line ∈ imageLines origin words,
      (∀ x ∈ ['\n', '\r'], ∀ g ∈ line, g.is x = false) ∧ line.isReadableLine = true := by
    intro line hline
    rcases List.mem_cons.mp hline with rfl | hline
    · rw [origin.originLine_eq]
      exact origin.readable_operandLine (by decide) (by decide)
    · obtain ⟨word, -, rfl⟩ := List.mem_map.mp hline
      rw [word.fillLine_eq]
      exact word.readable_operandLine (by decide) (by decide)
  refine Input.read_lines (fun line h => ?_) (fun line h g hg => ?_)
    (fun line h => (hline line h).2)
  · exact (hline line h).1 '\n' (by decide)
  · exact (hline line h).1 '\r' (by decide) g (List.mem_of_getLast? hg)

theorem ofLines_fills (implicitLabels : Bool) (first : Nat) (words : List HexNumeral) :
    Listing.ofLines implicitLabels
        (((words.map HexNumeral.fillLine).zipIdx first).map fun (text, index) =>
          ⟨(index : Int) + 1, text⟩) =
      ⟨fills (first + 1) words, none⟩ := by
  induction words generalizing first with
  | nil => rfl
  | cons word rest ih =>
    rw [List.map_cons, List.zipIdx_cons, List.map_cons, fills_cons,
      Listing.ofLines_next (word.ofLine_fillLine implicitLabels _) rfl, ih]
    rfl

theorem ofLines_imageLines (implicitLabels : Bool) (origin : HexNumeral) (words : List HexNumeral) :
    Listing.ofLines implicitLabels (SourceLine.ofTexts (imageLines origin words)) =
      ⟨origin.orig 1 :: fills 2 words, none⟩ := by
  unfold SourceLine.ofTexts imageLines
  rw [List.zipIdx_cons, List.map_cons,
    Listing.ofLines_next (origin.ofLine_originLine implicitLabels _) rfl, ofLines_fills]
  rfl

/-! ## The two passes over an image -/

/-- Behind a word that fits. -/
def Locator.behindWord (loc : Locator) : Locator :=
  { loc with address := loc.address + 2, placed := true }

theorem Locator.advance_word {loc : Locator} (h : loc.address + 2 ≤ addressLimit) :
    loc.advance wordSize = .ok loc.behindWord :=
  advance_eq_ok.mpr (.inr ⟨by decide, h, rfl⟩)

theorem Locator.advance_overflow {loc : Locator} (h : addressLimit < loc.address + 2) :
    loc.advance wordSize = .error .addressOverflow := by
  unfold advance wordSize
  rw [if_neg (by decide), if_neg (by omega)]

section

variable [Interpreter]

theorem Scope.relocate_orig {origin : HexNumeral} (heven : origin.word.toNat % 2 = 0)
    (scope : Scope)
    (number : Int) :
    scope.relocate .start (origin.orig number) =
      .ok ⟨origin.word, origin.word.toNat, false⟩ := by
  refine relocate_eq_ok.mpr (.inr ⟨rfl, origin.word, ?_, ?_⟩)
  · exact origin.immediate_text scope (by decide) (by decide)
  · exact Locator.setOrigin_eq_ok.mpr ⟨heven, .inr ⟨rfl, rfl⟩⟩

/-- A word is filled in as it is where no symbol is known. -/
theorem Scope.words_fill (word : HexNumeral) (number address line : Int) :
    Scope.words ⟨.empty, address, line⟩ (word.fill number) = .ok [word.word] := by
  have himmediate :
      UInt16.ofBitVec <$> Scope.immediate ⟨.empty, address, line⟩ Field.word word.text =
        .ok word.word := word.immediate_text _ (by decide) (by decide)
  have hword : Scope.word ⟨.empty, address, line⟩ word.text = .ok word.word := by
    have hunknown : SymbolTable.empty.lookup? word.text = none := by
      simp [SymbolTable.lookup?, SymbolTable.empty]
    obtain ⟨bits, hbits, hvalue⟩ := map_eq_ok.mp himmediate
    unfold Scope.word
    rw [hunknown]
    refine map_eq_ok.mpr ⟨bits, ?_, hvalue⟩
    unfold immediateOrLabel
    rw [hbits]
  exact bind_eq_ok.mpr ⟨word.text, rfl, bind_eq_ok.mpr ⟨word.word, hword, rfl⟩⟩

namespace Survey

theorem step_orig {origin : HexNumeral} (heven : origin.word.toNat % 2 = 0) (number : Int)
    (symbols : SymbolTable) :
    (start symbols).step (origin.orig number) =
      (⟨⟨origin.word, origin.word.toNat, false⟩, symbols⟩, none) := by
  refine step_eq_none.mpr ⟨⟨⟨origin.word, origin.word.toNat, false⟩, symbols⟩, ?_, ?_⟩
  · exact bind_eq_ok.mpr ⟨_, Scope.relocate_orig heven _ number, rfl⟩
  · exact pass_eq_ok.mpr ⟨0, rfl, Locator.advance_eq_ok.mpr (.inl ⟨rfl, rfl⟩), rfl⟩

theorem step_fill {v : Survey} (h : v.locator.address + 2 ≤ addressLimit) (word : HexNumeral)
    (number : Int) : v.step (word.fill number) = (⟨v.locator.behindWord, v.symbols⟩, none) :=
  step_eq_none.mpr ⟨v, rfl, pass_eq_ok.mpr ⟨wordSize, rfl, Locator.advance_word h, rfl⟩⟩

theorem step_fill_overflow {v : Survey} (h : addressLimit < v.locator.address + 2)
    (word : HexNumeral)
    (number : Int) : v.step (word.fill number) = (v, some .addressOverflow) := by
  have hmark : v.mark (word.fill number) = .ok v := rfl
  have hpass : v.pass (word.fill number) = .error .addressOverflow := by
    show (v.locator.advance wordSize >>= fun loc => .ok { v with locator := loc }) = _
    rw [Locator.advance_overflow h]
    rfl
  unfold step
  simp only [hmark, hpass]

/-- Words that fit are passed, and leave the table as it is. -/
theorem through_fills {v : Survey} {words : List HexNumeral}
    (h : v.locator.address + 2 * words.length ≤ addressLimit) (first : Nat) :
    (Walk.through step v (fills first words)).error = none ∧
      (Walk.through step v (fills first words)).final.symbols = v.symbols := by
  induction words generalizing v first with
  | nil => exact ⟨rfl, rfl⟩
  | cons word rest ih =>
    rw [List.length_cons] at h
    have hnext : v.locator.behindWord.address + 2 * rest.length ≤ addressLimit := by
      show v.locator.address + 2 + 2 * rest.length ≤ addressLimit
      omega
    rw [fills_cons, Walk.through_next _ (step_fill (by omega) word first) rfl]
    exact ih (v := ⟨v.locator.behindWord, v.symbols⟩) hnext (first + 1)

/-- The first word behind the last address is where the pass stops. -/
theorem through_fills_overflow {v : Survey} {words : List HexNumeral}
    (h : v.locator.address + 2 * words.length = addressLimit) (first : Nat) (word : HexNumeral)
    (more : List HexNumeral) :
    (Walk.through step v (fills first (words ++ word :: more))).error =
      some (.located ⟨(first + words.length : Nat), word.fillLine⟩ .addressOverflow) := by
  induction words generalizing v first with
  | nil =>
    have hover : addressLimit < v.locator.address + 2 := by
      rw [List.length_nil] at h
      omega
    rw [List.nil_append, fills_cons, Walk.through_fault _ (step_fill_overflow hover word first)]
    rfl
  | cons word' rest ih =>
    rw [List.length_cons] at h
    have hnext : v.locator.behindWord.address + 2 * rest.length = addressLimit := by
      show v.locator.address + 2 + 2 * rest.length = addressLimit
      omega
    rw [List.cons_append, fills_cons, Walk.through_next _ (step_fill (by omega) word' first) rfl]
    have hrest := ih (v := ⟨v.locator.behindWord, v.symbols⟩) hnext (first + 1)
    rw [show first + 1 + rest.length = first + (word' :: rest).length by
      rw [List.length_cons]; omega] at hrest
    exact hrest

end Survey

namespace Encoding

theorem step_orig {origin : HexNumeral} (heven : origin.word.toNat % 2 = 0) (number : Int)
    (symbols : SymbolTable) :
    step symbols start (origin.orig number) =
      (⟨⟨origin.word, origin.word.toNat, false⟩, []⟩, none) := by
  refine step_eq_none.mpr ⟨⟨⟨origin.word, origin.word.toNat, false⟩, []⟩, ?_, ?_⟩
  · exact bind_eq_ok.mpr ⟨_, Scope.relocate_orig heven _ number, rfl⟩
  · exact emit_eq_ok.mpr ⟨[], rfl, Locator.advance_eq_ok.mpr (.inl ⟨rfl, rfl⟩), rfl⟩

theorem step_fill {e : Encoding} (h : e.locator.address + 2 ≤ addressLimit) (word : HexNumeral)
    (number : Int) :
    step .empty e (word.fill number) =
      (⟨e.locator.behindWord, Cell.place e.locator.address ⟨number, word.fillLine⟩
        [word.word] ++
        e.cells⟩, none) :=
  step_eq_none.mpr ⟨e, rfl, emit_eq_ok.mpr ⟨[word.word], Scope.words_fill word number _ _,
    Locator.advance_word h, rfl⟩⟩

/-- Words that fit are placed one behind the other. -/
theorem through_fills {e : Encoding} {words : List HexNumeral}
    (h : e.locator.address + 2 * words.length ≤ addressLimit) (first : Nat) :
    let w := Walk.through (step .empty) e (fills first words)
    w.error = none ∧ w.final.locator.origin = e.locator.origin ∧
      w.final.cells.reverse.map (·.word) = e.cells.reverse.map (·.word) ++
        words.map (·.word) := by
  induction words generalizing e first with
  | nil => exact ⟨rfl, rfl, (List.append_nil _).symm⟩
  | cons word rest ih =>
    rw [List.length_cons] at h
    have hnext : e.locator.behindWord.address + 2 * rest.length ≤ addressLimit := by
      show e.locator.address + 2 + 2 * rest.length ≤ addressLimit
      omega
    rw [fills_cons, Walk.through_next _ (step_fill (by omega) word first) rfl]
    obtain ⟨herror, horigin, hwords⟩ := ih (e := ⟨e.locator.behindWord,
      Cell.place e.locator.address ⟨first, word.fillLine⟩ [word.word] ++ e.cells⟩) hnext
        (first + 1)
    refine ⟨herror, horigin, hwords.trans ?_⟩
    simp [Cell.place]

end Encoding

/-- An assembler that has nothing predefined surveys on top of an empty table. -/
theorem Assembler.survey_unseeded {a : Assembler} (h : a.predefined = .empty)
    (statements : List Statement) :
    (a.survey statements).result =
      ((Survey.walk .empty statements).final.symbols, (Survey.walk .empty statements).error) := by
  have hseed : SymbolTable.empty.defineAll a.predefined.toList = .ok .empty := by
    rw [h]
    rfl
  unfold survey
  rw [hseed]

theorem assembleText_imageSource (origin : HexNumeral) (words : List HexNumeral) :
    assembleText (imageSource origin words) =
      match (Survey.walk .empty (origin.orig 1 :: fills 2 words)).error with
      | some error => .error error
      | none =>
        Encoding.program (Survey.walk .empty (origin.orig 1 :: fills 2 words)).final.symbols
          (Encoding.walk (Survey.walk .empty (origin.orig 1 :: fills 2 words)).final.symbols
            (origin.orig 1 :: fills 2 words)) := by
  have hlisting : Listing.ofLines false
      (Input.read ⟨imageSource origin words, false⟩).sourceLines =
      ⟨origin.orig 1 :: fills 2 words, none⟩ := by
    rw [read_imageSource]
    exact ofLines_imageLines false origin words
  unfold assembleText
  rw [Assembler.assemble_result, Assembler.survey_unseeded rfl]
  simp only [Assembler.statementsOf, hlisting]
  rw [read_imageSource]
  simp only
  cases (Survey.walk .empty (origin.orig 1 :: fills 2 words)).error with
  | some error => rfl
  | none => rfl

/-- An image can be spelled out as a source. Assembling the source gives the origin and the words,
and no symbols, for every even origin and all words that fit behind it. The first word that does not
fit makes assembling fail at its line, whatever comes behind it. -/
theorem image_source_assembles (origin : HexNumeral) (words : List HexNumeral)
    (heven : origin.word.toNat % 2 = 0)
    (hfits : origin.word.toNat / 2 + words.length ≤ 0x8000) :
    (∃ prog, assembleText (imageSource origin words) = .ok prog ∧ prog.origin = origin.word ∧
      prog.words = words.map (·.word) ∧ prog.symbols = .empty) ∧
    (origin.word.toNat / 2 + words.length = 0x8000 →
      ∀ (word : HexNumeral) (more : List HexNumeral),
      assembleText (imageSource origin (words ++ word :: more)) =
        .error (.located ⟨(words.length : Int) + 2, word.fillLine⟩ .addressOverflow)) := by
  -- behind the line of the origin both passes start at the origin, with nothing placed
  have hfirst : ∀ later, Survey.walk .empty (origin.orig 1 :: later) =
      { Walk.through Survey.step ⟨⟨origin.word, origin.word.toNat, false⟩, .empty⟩
          later with
        visits := (.start .empty, origin.orig 1) ::
          (Walk.through Survey.step ⟨⟨origin.word, origin.word.toNat, false⟩, .empty⟩
            later).visits } :=
    fun later => Walk.through_next later (Survey.step_orig heven 1 .empty) rfl
  constructor
  · have hroom : origin.word.toNat + 2 * words.length ≤ addressLimit := by
      unfold addressLimit
      omega
    obtain ⟨herror, hsymbols⟩ := Survey.through_fills
      (v := ⟨⟨origin.word, origin.word.toNat, false⟩, .empty⟩) hroom 2
    obtain ⟨herror', horigin, hwords⟩ := Encoding.through_fills
      (e := ⟨⟨origin.word, origin.word.toNat, false⟩, []⟩) hroom 2
    have hsecond : Encoding.walk .empty (origin.orig 1 :: fills 2 words) = _ :=
      Walk.through_next _ (Encoding.step_orig heven 1 .empty) rfl
    rw [assembleText_imageSource, hfirst]
    simp only [herror, hsymbols]
    unfold Encoding.program
    rw [hsecond]
    simp only [herror']
    exact ⟨_, rfl, horigin, hwords, rfl⟩
  · intro hfull word more
    have hlimit : origin.word.toNat + 2 * words.length = addressLimit := by
      unfold addressLimit
      omega
    have herror := Survey.through_fills_overflow
      (v := ⟨⟨origin.word, origin.word.toNat, false⟩, .empty⟩) hlimit 2 word more
    rw [assembleText_imageSource, hfirst]
    simp only [herror]
    rw [show ((2 + words.length : Nat) : Int) = (words.length : Int) + 2 by omega]

end

/-- An origin with room for two words. -/
def topOrigin : HexNumeral := ⟨0xFFFC, ['f', 'F', 'f', 'C'], by decide⟩

def topWords : List HexNumeral :=
  [⟨0x00AB, ['0', '0', 'a', 'B'], by decide⟩, ⟨0xFFFF, ['F', 'F', 'F', 'F'], by decide⟩]

/-- Two words fill the space up to its end, and the third is refused at its line. -/
theorem image_source_assembles_top :
    topOrigin.word.toNat % 2 = 0 ∧ topOrigin.word.toNat / 2 + topWords.length = 0x8000 ∧
      imageSource topOrigin topWords = (".ORIG xfFfC\n.FILL x00aB\n.FILL xFFFF\n" : Text) ∧
      (∃ prog, assembleText (".ORIG xfFfC\n.FILL x00aB\n.FILL xFFFF\n" : Text) = .ok prog ∧
        prog.origin = 0xFFFC ∧ prog.words = [0x00AB, 0xFFFF] ∧ prog.symbols = .empty) ∧
      assembleText (".ORIG xfFfC\n.FILL x00aB\n.FILL xFFFF\n.FILL xfFfC\n" : Text) =
        .error (.located ⟨4, (".FILL xfFfC" : Text)⟩ .addressOverflow) := by
  have hsource : imageSource topOrigin topWords =
      (".ORIG xfFfC\n.FILL x00aB\n.FILL xFFFF\n" : Text) := by
    decide +kernel
  have hlonger : imageSource topOrigin (topWords ++ [topOrigin]) =
      (".ORIG xfFfC\n.FILL x00aB\n.FILL xFFFF\n.FILL xfFfC\n" : Text) := by decide +kernel
  obtain ⟨hprog, hfails⟩ := image_source_assembles topOrigin topWords (by decide) (by decide)
  have hfault := hfails (by decide) topOrigin []
  rw [hsource] at hprog
  rw [hlonger] at hfault
  exact ⟨by decide, by decide, hsource, hprog, hfault⟩

end LittleComputer
