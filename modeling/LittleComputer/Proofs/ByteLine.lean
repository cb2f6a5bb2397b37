import LittleComputer.Proofs.Reading

/-!
# Lines of bytes

Lines are cut out of glyphs, but a file holds bytes, and bytes are what the length of a line is
counted in. A newline is one byte that belongs to no longer sequence. So the bytes can be cut first,
and each line read on its own: that gives the lines which are cut out of the glyphs.
-/

namespace LittleComputer

def newlineByte : UInt8 := 0x0A

def returnByte : UInt8 := 0x0D

/-- The lines of bytes: what stands before each newline, and behind the last one if there is
anything. -/
def byteLines : List UInt8 → List (List UInt8)
  | [] => []
  | b :: rest =>
    if b = newlineByte then [] :: byteLines rest
    else
      match byteLines rest with
      | [] => [[b]]
      | line :: lines => (b :: line) :: lines

theorem byteLines_ended {line : List UInt8} (h : newlineByte ∉ line) (rest : List UInt8) :
    byteLines (line ++ newlineByte :: rest) = line :: byteLines rest := by
  induction line with
  | nil => simp [byteLines]
  | cons b line ih =>
    obtain ⟨hb, hline⟩ := List.ne_and_not_mem_of_not_mem_cons h
    rw [List.cons_append, byteLines, if_neg (Ne.symm hb), ih hline]

theorem byteLines_unended {line : List UInt8} (h : newlineByte ∉ line) (hline : line ≠ []) :
    byteLines line = [line] := by
  induction line with
  | nil => exact absurd rfl hline
  | cons b line ih =>
    obtain ⟨hb, hrest⟩ := List.ne_and_not_mem_of_not_mem_cons h
    rw [byteLines, if_neg (Ne.symm hb)]
    cases line with
    | nil => rfl
    | cons b' more => rw [ih hrest (List.cons_ne_nil _ _)]

/-- Induction from line to line. -/
theorem line_induction {p : List UInt8 → Prop} (nil : p [])
    (unended : ∀ line, newlineByte ∉ line → line ≠ [] → p line)
    (ended : ∀ line rest, newlineByte ∉ line → p rest → p (line ++ newlineByte :: rest))
    (bytes : List UInt8) : p bytes := by
  by_cases hmem : newlineByte ∈ bytes
  · obtain ⟨line, rest, hbytes, hline⟩ := List.eq_append_cons_of_mem hmem
    have hshorter : rest.length < bytes.length := by
      rw [hbytes, List.length_append, List.length_cons]
      omega
    rw [hbytes]
    exact ended line rest hline (line_induction nil unended ended rest)
  · by_cases hnil : bytes = []
    · rw [hnil]
      exact nil
    · exact unended bytes hmem hnil
termination_by bytes.length

namespace Text

/-! ## Cutting -/

theorem cutLines_unended {line : Text} (h : ∀ g ∈ line, g.is '\n' = false)
    (hline : line ≠ []) :
    cutLines line = [line] := by
  have hfrom : ∀ before : Text, before ++ line ≠ [] →
      cutLinesFrom line before.reverse [] = [before ++ line] := by
    clear hline
    induction line with
    | nil =>
      intro before hbefore
      rw [List.append_nil] at hbefore ⊢
      cases hreverse : before.reverse with
      | nil => exact absurd (List.reverse_eq_nil_iff.mp hreverse) hbefore
      | cons g rest => rw [cutLinesFrom, ← hreverse, List.reverse_reverse] <;> simp
    | cons g line ih =>
      intro before _
      have hg := h g List.mem_cons_self
      have hlonger := ih (fun g hg => h g (List.mem_cons_of_mem _ hg)) (before ++ [g]) (by simp)
      rw [List.reverse_append, List.append_assoc] at hlonger
      simp only [cutLinesFrom, hg, Bool.false_eq_true, if_false]
      exact hlonger
  exact hfrom [] hline

/-! ## Reading lines apart -/

theorem ofBytes_newline (line rest : List UInt8) :
    ofBytes (line ++ newlineByte :: rest) = ofBytes line ++ .char '\n' :: ofBytes rest := by
  have hlead : lead? newlineByte rest = some ('\n', 0) :=
    lead?_of_ascii (c := '\n') (by decide) rest
  rw [ofBytes_border (by decide), ofBytes_of_lead hlead, List.drop_zero]

theorem ofBytes_return (line : List UInt8) :
    ofBytes (line ++ [returnByte]) = ofBytes line ++ [.char '\r'] := by
  have hlead : lead? returnByte [] = some ('\r', 0) := lead?_of_ascii (c := '\r') (by decide) []
  rw [ofBytes_border (by decide), ofBytes_of_lead hlead]
  rfl

theorem mem_of_ofBytes {bytes : List UInt8} {g : Glyph} {b : UInt8} (hg : g ∈ ofBytes bytes)
    (hb : b ∈ g.bytes) : b ∈ bytes := by
  rw [← toBytes_ofBytes bytes]
  exact List.mem_flatMap.mpr ⟨g, hg, hb⟩

theorem no_newline_of_bytes {line : List UInt8} (h : newlineByte ∉ line) :
    ∀ g ∈ ofBytes line, g.is '\n' = false := by
  intro g hg
  rw [Bool.eq_false_iff]
  intro hnewline
  rw [(Glyph.is_iff g '\n').mp hnewline] at hg
  exact h (mem_of_ofBytes hg (by decide))

theorem no_return_of_bytes {line : List UInt8} (h : line.getLast? ≠ some returnByte) :
    ∀ g ∈ (ofBytes line).getLast?, g.is '\r' = false := by
  intro g hg
  rw [Bool.eq_false_iff]
  intro hreturn
  rw [(Glyph.is_iff g '\r').mp hreturn] at hg
  obtain ⟨front, hfront⟩ := List.getLast?_eq_some_iff.mp hg
  have hbytes : line = toBytes front ++ [returnByte] := by
    rw [← toBytes_ofBytes line, hfront, toBytes_append]
    rfl
  exact h (by rw [hbytes, List.getLast?_concat])

/-- Cutting bytes into lines and cutting what they are read as come to the same. -/
theorem cutLines_ofBytes (bytes : List UInt8) :
    (ofBytes bytes).cutLines = (byteLines bytes).map ofBytes := by
  induction bytes using line_induction with
  | nil => rfl
  | unended line hline hnonempty =>
    have hread : ofBytes line ≠ [] := by
      intro hnil
      have hbytes := toBytes_ofBytes line
      rw [hnil] at hbytes
      exact hnonempty hbytes.symm
    rw [cutLines_unended (no_newline_of_bytes hline) hread, byteLines_unended hline hnonempty]
    rfl
  | ended line rest hline ih =>
    rw [ofBytes_newline, cutLines_ended (no_newline_of_bytes hline), ih, byteLines_ended hline]
    rfl

theorem isReadableLine_ofBytes {line : List UInt8} :
    (ofBytes line).isReadableLine = true ↔ line.length < lineLimit := by
  unfold isReadableLine
  rw [width_eq_length, toBytes_ofBytes, decide_eq_true_eq]

end Text

/-- Bytes whose lines are short enough are read line by line, each without the carriage return at
its end. -/
theorem Input.read_ofBytes {bytes : List UInt8}
    (h : ∀ line ∈ byteLines bytes, line.length < lineLimit) :
    Input.read ⟨Text.ofBytes bytes, false⟩ =
      ⟨(byteLines bytes).map fun line => (Text.ofBytes line).dropReturn, none⟩ := by
  have hreadable : ∀ t ∈ (Text.ofBytes bytes).cutLines, t.isReadableLine = true := by
    intro t ht
    rw [Text.cutLines_ofBytes] at ht
    obtain ⟨line, hline, rfl⟩ := List.mem_map.mp ht
    exact Text.isReadableLine_ofBytes.mpr (h line hline)
  rw [Input.read_of_readable hreadable, Text.cutLines_ofBytes, List.map_map]
  rfl

end LittleComputer
