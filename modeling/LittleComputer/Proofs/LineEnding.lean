import LittleComputer.Assembler
import LittleComputer.Expression.Evaluation
import LittleComputer.Proofs.ByteLine

/-!
# Line ends do not matter

A line may end with a newline or with a carriage return and a newline, and the last one with
neither. All these ways to write the same lines are read as those lines with the same numbers, so
that the assembler cannot tell them apart.
-/

namespace LittleComputer

inductive LineEnd where
  | newline | returnNewline

def LineEnd.bytes : LineEnd → List UInt8
  | .newline => [newlineByte]
  | .returnNewline => [returnByte, newlineByte]

/-- The bytes write the lines. Each line has a line end of its own choice behind it; the last one
can do without if it is not empty. -/
inductive WritesLines : List (List UInt8) → List UInt8 → Prop where
  | nil : WritesLines [] []
  | unended {line : List UInt8} (hline : line ≠ []) : WritesLines [line] line
  | ended {line : List UInt8} {lines : List (List UInt8)} {bytes : List UInt8} (lineEnd : LineEnd)
      (h : WritesLines lines bytes) : WritesLines (line :: lines) (line ++ lineEnd.bytes ++ bytes)

/-- Bytes that can be told from the line end behind them, and leave room for a carriage return
there. -/
structure IsPlainLine (line : List UInt8) : Prop where
  newline : newlineByte ∉ line
  last : line.getLast? ≠ some returnByte
  short : line.length ≤ 65534

namespace IsPlainLine

variable {line : List UInt8} (h : IsPlainLine line)

include h

theorem dropReturn : (Text.ofBytes line).dropReturn = Text.ofBytes line :=
  Text.dropReturn_of_last (Text.no_return_of_bytes h.last)

theorem lt_lineLimit : line.length < lineLimit := by
  have hshort := h.short
  unfold lineLimit
  omega

/-- The bytes up to the newline are the line or the line and a carriage return. Both are short
enough, and both are read as the line. -/
theorem exists_ended (lineEnd : LineEnd) (rest : List UInt8) :
    ∃ raw : List UInt8, byteLines (line ++ lineEnd.bytes ++ rest) = raw :: byteLines rest ∧
      (Text.ofBytes raw).dropReturn = Text.ofBytes line ∧ raw.length < lineLimit := by
  rw [List.append_assoc]
  cases lineEnd with
  | newline => exact ⟨line, byteLines_ended h.newline rest, h.dropReturn, h.lt_lineLimit⟩
  | returnNewline =>
    have hnewline : newlineByte ∉ line ++ [returnByte] := by
      rw [List.mem_append, not_or]
      exact ⟨h.newline, by decide⟩
    have hcut := byteLines_ended hnewline rest
    rw [List.append_assoc] at hcut
    refine ⟨line ++ [returnByte], hcut, ?_, ?_⟩
    · rw [Text.ofBytes_return, Text.dropReturn_return]
    · have hshort := h.short
      rw [List.length_append, List.length_singleton, lineLimit]
      omega

end IsPlainLine

section Written

variable {lines : List (List UInt8)} {bytes : List UInt8}
  (hlines : ∀ line ∈ lines, IsPlainLine line)
  (h : WritesLines lines bytes)

include hlines h

theorem byteLines_of_written :
    ((byteLines bytes).map fun raw => (Text.ofBytes raw).dropReturn) = lines.map Text.ofBytes ∧
      ∀ raw ∈ byteLines bytes, raw.length < lineLimit := by
  induction h with
  | nil => exact ⟨rfl, nofun⟩
  | @unended line hline =>
    have hplain := hlines line List.mem_cons_self
    rw [byteLines_unended hplain.newline hline]
    refine ⟨?_, fun raw hraw => ?_⟩
    · rw [List.map_singleton, hplain.dropReturn, List.map_singleton]
    · rw [List.mem_singleton.mp hraw]
      exact hplain.lt_lineLimit
  | @ended line lines bytes lineEnd _ ih =>
    obtain ⟨hread, hshort⟩ := ih fun line hline => hlines line (List.mem_cons_of_mem _ hline)
    obtain ⟨raw, hcut, hraw, hlt⟩ := (hlines line List.mem_cons_self).exists_ended lineEnd bytes
    rw [hcut]
    refine ⟨?_, List.forall_mem_cons.mpr ⟨hlt, hshort⟩⟩
    rw [List.map_cons, List.map_cons, hraw, hread]

theorem Input.read_of_written :
    Input.read ⟨.ofBytes bytes, false⟩ = ⟨lines.map Text.ofBytes, none⟩ := by
  obtain ⟨hread, hshort⟩ := byteLines_of_written hlines h
  rw [Input.read_ofBytes hshort, hread]

end Written

theorem SourceLine.getElem?_ofTexts (texts : List Text) (k : Nat) :
    (ofTexts texts)[k]? = texts[k]?.map fun text => ⟨(k : Int) + 1, text⟩ := by
  unfold ofTexts
  rw [List.getElem?_map, List.getElem?_zipIdx, Option.map_map, Nat.zero_add]
  rfl

/-- Line ends do not matter. However the ends of plain lines are written, reading goes through and
gives these lines, numbered from 1. So two ways to write them are assembled to the same program, or
to the same error, by every assembler. -/
theorem line_ends_are_immaterial [Interpreter] {lines : List (List UInt8)}
    (hlines : ∀ line ∈ lines, IsPlainLine line) :
    (∀ bytes, WritesLines lines bytes →
      let reading := Input.read ⟨.ofBytes bytes, false⟩
      reading.fault = none ∧
      ∀ k : Nat, reading.sourceLines[k]? = lines[k]?.map fun line =>
        ⟨(k : Int) + 1, .ofBytes line⟩) ∧
    ∀ bytes bytes', WritesLines lines bytes → WritesLines lines bytes' →
      assembleText (.ofBytes bytes) = assembleText (.ofBytes bytes') ∧
      ∀ a : Assembler, a.assemble ⟨.ofBytes bytes, false⟩ =
        a.assemble ⟨.ofBytes bytes', false⟩ := by
  refine ⟨fun bytes h => ?_, fun bytes bytes' h h' => ?_⟩
  · intro reading
    have hread : reading = ⟨lines.map Text.ofBytes, none⟩ := Input.read_of_written hlines h
    rw [hread]
    refine ⟨rfl, fun k => ?_⟩
    rw [Reading.sourceLines, SourceLine.getElem?_ofTexts, List.getElem?_map, Option.map_map]
    rfl
  · have hsame : ∀ a : Assembler,
        a.assemble ⟨.ofBytes bytes, false⟩ = a.assemble ⟨.ofBytes bytes', false⟩ := by
      intro a
      unfold Assembler.assemble
      rw [Input.read_of_written hlines h, Input.read_of_written hlines h']
    exact ⟨congrArg Logged.result (hsame {}), hsame⟩

/-- A comment that leaves room for nothing but its line end, an empty line, and a statement. -/
def longLines : List (List UInt8) := [List.replicate 65534 0x3B, [], Text.toBytes ".FILL 7"]

/-- With a carriage return the comment is as long as a line can be. The statement behind it is found
in line 3 all the same, and it is no matter which lines have a carriage return and whether the last
one ends. -/
theorem line_ends_are_immaterial_long :
    let comment : List UInt8 := List.replicate 65534 0x3B
    let statement : List UInt8 := Text.toBytes ".FILL 7"
    let mixed := comment ++ [0x0D, 0x0A] ++ ([0x0A] ++ statement)
    let other := comment ++ [0x0A] ++ ([0x0D, 0x0A] ++ (statement ++ [0x0D, 0x0A]))
    (∀ line ∈ longLines, IsPlainLine line) ∧
      (Input.read ⟨.ofBytes mixed, false⟩).sourceLines[2]? = some ⟨3, ".FILL 7"⟩ ∧
      assembleText (.ofBytes mixed) = assembleText (.ofBytes other) := by
  intro comment statement mixed other
  have hplain : ∀ line ∈ longLines, IsPlainLine line := by
    intro line hline
    simp only [longLines, List.mem_cons, List.not_mem_nil, or_false] at hline
    rcases hline with rfl | rfl | rfl
    · refine ⟨fun hmem => ?_, ?_, Nat.le_of_eq List.length_replicate⟩
      · exact absurd (List.eq_of_mem_replicate hmem) (by decide)
      · rw [List.getLast?_replicate]
        decide
    · exact ⟨nofun, nofun, Nat.zero_le _⟩
    · exact ⟨by decide, by decide, by decide⟩
  have hmixed : WritesLines longLines (comment ++ LineEnd.returnNewline.bytes ++
      ([] ++ LineEnd.newline.bytes ++ statement)) :=
    .ended .returnNewline (.ended .newline (.unended (by decide)))
  have hother : WritesLines longLines other := by
    have hwritten : WritesLines longLines (comment ++ LineEnd.newline.bytes ++
        ([] ++ LineEnd.returnNewline.bytes ++ (statement ++ LineEnd.returnNewline.bytes ++ []))) :=
      .ended .newline (.ended .returnNewline (.ended .returnNewline .nil))
    rw [List.append_nil] at hwritten
    exact hwritten
  obtain ⟨hread, hassemble⟩ := line_ends_are_immaterial hplain
  exact ⟨hplain, ((hread mixed hmixed).2 2).trans (by decide),
    (hassemble mixed other hmixed hother).1⟩

end LittleComputer
