import LittleComputer.Proofs.Operand
import LittleComputer.Proofs.Scan
import LittleComputer.Proofs.StringGrammar

/-!
# How large a statement can be

A line has fewer bytes than the limit, so it has fewer glyphs, and none of its words has more. A
string has at most one word for each glyph between its quotes; a block is counted by 16 bits. Hence
no statement of a source takes more bytes than the longest block, which is far less than 64 bits can
count.
-/

namespace LittleComputer

open Outcome

/-! ## Parts of a line -/

namespace Text

theorem length_le_width (t : Text) : t.length ≤ t.width := by
  rw [width_eq_length]
  induction t with
  | nil => exact Nat.le_refl 0
  | cons g rest ih =>
    have hpos : 0 < g.bytes.length := by
      cases g with
      | char c => exact String.length_utf8EncodeChar c ▸ c.utf8Size_pos
      | stray b => exact Nat.one_pos
    rw [toBytes_cons, List.length_cons, List.length_append]
    omega

theorem length_stripComment_le (t : Text) : t.stripComment.length ≤ t.length := by
  unfold stripComment
  obtain hwhole | ⟨comment, hcut⟩ := stripCommentFrom_cut .outside t
  · exact Nat.le_of_eq (congrArg List.length hwhole)
  · have hlength := congrArg List.length hcut
    rw [List.length_append] at hlength
    omega

theorem length_trim_le (t : Text) : t.trim.length ≤ t.length := by
  obtain ⟨before, behind, ht, -⟩ := exists_trim t
  have hlength := congrArg List.length ht
  rw [List.length_append, List.length_append] at hlength
  omega

theorem length_dropReturn_le (t : Text) : t.dropReturn.length ≤ t.length := by
  unfold dropReturn
  split
  · rename_i g rest hreverse
    have hlength := congrArg List.length hreverse
    rw [List.length_reverse, List.length_cons] at hlength
    split
    · rw [List.length_reverse]
      omega
    · exact Nat.le_refl _
  · exact Nat.le_refl _

theorem length_of_splitLabel? {t before rest : Text} (h : t.splitLabel? = some (before, rest)) :
    rest.length ≤ t.length := by
  have hdrop := (t.dropWhile_sublist isLabelGlyph).length_le
  unfold splitLabel? at h
  split at h
  · rename_i g behind hbehind
    rw [hbehind, List.length_cons] at hdrop
    split at h
    · cases h
      have htrim := length_trim_le behind
      omega
    · cases h
  · cases h

end Text

namespace WordScan

/-- No word of a scan, found or still being read, has more glyphs than this. -/
def Within (s : WordScan) (n : Nat) : Prop :=
  s.word.length ≤ n ∧ ∀ w ∈ s.words, w.length ≤ n

variable {s : WordScan} {n : Nat}

theorem Within.flush (h : s.Within n) : s.flush.Within n := by
  unfold WordScan.flush
  split
  · exact h
  · refine ⟨Nat.zero_le n, List.forall_mem_cons.mpr ⟨?_, h.2⟩⟩
    rw [List.length_reverse]
    exact h.1

/-- A glyph makes the word longer by one at most. -/
theorem Within.step (h : s.Within n) (g : Glyph) : (s.step g).Within (n + 1) := by
  unfold WordScan.step
  simp only
  split
  · obtain ⟨hword, hwords⟩ := h.flush
    exact ⟨Nat.le_succ_of_le hword, fun w hw => Nat.le_succ_of_le (hwords w hw)⟩
  · exact ⟨Nat.succ_le_succ h.1, fun w hw => Nat.le_succ_of_le (h.2 w hw)⟩

theorem Within.foldl (h : s.Within n) (t : Text) :
    (t.foldl WordScan.step s).Within (n + t.length) := by
  induction t generalizing s n with
  | nil => exact h
  | cons g rest ih =>
    rw [List.length_cons, Nat.add_comm rest.length 1, ← Nat.add_assoc]
    exact ih (h.step g)

end WordScan

theorem Text.length_of_mem_words {t w : Text} (h : w ∈ t.words) : w.length ≤ t.length := by
  have hstart : WordScan.start.Within 0 := ⟨Nat.le_refl 0, nofun⟩
  have hend := (hstart.foldl t).flush
  rw [Nat.zero_add] at hend
  exact hend.2 w (List.mem_reverse.mp h)

namespace Statement

variable {implicitLabels : Bool} {line : SourceLine} {s : Statement}

theorem length_of_ofLine (h : ofLine implicitLabels line = .ok (some s)) {word : Text}
    (hword : word ∈ s.operands) : word.length ≤ line.text.length := by
  obtain ⟨label, text, -, htext, hwords⟩ := words_of_ofLine h
  have hstripped := line.text.length_stripComment_le
  have htrimmed := line.text.stripComment.length_trim_le
  have hlength : text.length ≤ line.text.length := by
    obtain rfl | ⟨before, hsplit⟩ := htext
    · exact Nat.le_trans htrimmed hstripped
    · exact Nat.le_trans (Text.length_of_splitLabel? hsplit) (Nat.le_trans htrimmed hstripped)
  have hmem : word ∈ text.words := by
    obtain ⟨-, hs⟩ | ⟨_, _, hcut, -⟩ | ⟨_, _, _, _, hcut, -⟩ := cases_of_ofWords hwords
    · rw [hs] at hword
      cases hword
    · rw [hcut]
      exact List.mem_cons_of_mem _ hword
    · rw [hcut]
      exact List.mem_cons_of_mem _ (List.mem_cons_of_mem _ hword)
  exact Nat.le_trans (Text.length_of_mem_words hmem) hlength

end Statement

theorem Input.length_of_mem_sourceLines {input : Input} {line : SourceLine}
    (h : line ∈ input.read.sourceLines) : line.text.length < lineLimit := by
  obtain ⟨⟨text, index⟩, hmem, rfl⟩ := List.mem_map.mp h
  have htext : text ∈ input.read.lines := List.fst_mem_of_mem_zipIdx hmem
  obtain ⟨whole, hwhole, rfl⟩ := List.mem_map.mp htext
  have hreadable : whole.width < lineLimit := by
    simpa [Text.isReadableLine] using List.all_eq_true.mp List.all_takeWhile whole hwhole
  exact Nat.lt_of_le_of_lt (Nat.le_trans whole.length_dropReturn_le whole.length_le_width) hreadable

/-! ## Sizes -/

namespace StringLiteral

/-- Every item takes a glyph at least. -/
theorem length_le_flatten {items : List Text} {ws : List UInt16}
    (h : List.Forall₂ Item items ws) :
    ws.length ≤ items.flatten.length := by
  induction h with
  | nil => exact Nat.le_refl 0
  | cons hitem _ ih =>
    have hpos := List.length_pos_iff.mpr hitem.ne_nil
    rw [List.flatten_cons, List.length_append, List.length_cons]
    omega

/-- A string has fewer words than its literal has glyphs, also with the zero at its end. -/
theorem length_of_words {literal : Text} {ws : List UInt16} (h : words literal = .ok ws) :
    ws.length + 1 < literal.length := by
  unfold words at h
  split at h
  · rename_i found hfound
    cases h
    obtain ⟨body, hbody, hread⟩ := Option.bind_eq_some_iff.mp hfound
    obtain ⟨items, more, hitems, rfl, hmore⟩ := wordsFrom?_eq_some.mp hread
    have hcount := length_le_flatten hitems
    have hquote : ("\"" : Text).length = 1 := rfl
    rw [body?_eq_some.mp hbody, hmore, List.reverse_nil, List.nil_append, List.length_append,
      List.length_append, hquote]
    omega
  · cases h

end StringLiteral

namespace Scope

variable [Interpreter]

/-- The size of a statement is even, and bounded by the longest block or by the length of an
operand. -/
theorem size_le {scope : Scope} {s : Statement} {size : Nat} (h : scope.size s = .ok size) :
    size % 2 = 0 ∧ (size ≤ 0x1FFFE ∨ ∃ word ∈ s.operands, size ≤ 2 * word.length) := by
  unfold Scope.size at h
  split at h
  · cases h
    exact ⟨rfl, .inl (by decide)⟩
  · cases h
    exact ⟨rfl, .inl (by decide)⟩
  · cases h
    exact ⟨rfl, .inl (by decide)⟩
  · obtain ⟨count, hcount, rfl⟩ := map_eq_ok.mp h
    obtain ⟨word, -, hcount⟩ := bind_eq_ok.mp hcount
    obtain ⟨b, -, rfl⟩ := map_eq_ok.mp hcount
    have hb : b.toNat < 0x10000 := b.isLt
    simp only [wordSize]
    omega
  · obtain ⟨ws, hws, rfl⟩ := map_eq_ok.mp h
    unfold Statement.stringWords at hws
    split at hws
    · cases hws
    · obtain ⟨word, hword, hws⟩ := bind_eq_ok.mp hws
      have hlength := StringLiteral.length_of_words hws
      simp only [wordSize]
      refine ⟨by omega, .inr ⟨word, Statement.mem_of_operand hword, by omega⟩⟩
  · cases h
    exact ⟨rfl, .inl (by decide)⟩

/-- No statement of a source takes more bytes than the longest block. -/
theorem size_le_of_listed {implicitLabels : Bool} {input : Input} {scope : Scope} {s : Statement}
    (hs : s ∈ (Listing.ofLines implicitLabels input.read.sourceLines).statements) {size : Nat}
    (h : scope.size s = .ok size) : size % 2 = 0 ∧ size ≤ 0x1FFFE := by
  obtain ⟨heven, hblock | ⟨word, hword, hsize⟩⟩ := size_le h
  · exact ⟨heven, hblock⟩
  · obtain ⟨line, hline, hofLine⟩ := Listing.mem_ofLines hs
    have hlength := Statement.length_of_ofLine hofLine hword
    have hlimit := Input.length_of_mem_sourceLines hline
    simp only [lineLimit] at hlimit
    omega

end Scope

end LittleComputer
