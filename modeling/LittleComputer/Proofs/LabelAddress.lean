import LittleComputer.Proofs.Agreement
import LittleComputer.Proofs.Tiling

/-!
# Labels and the words behind them

A label gets its address in the first pass and the words behind it get theirs in the second. Nothing
compares the two. They are the same exactly where both passes reach the statement at the same
address, and that is everywhere as long as no label is `PC` or `LINENO`. A label with one of these
names changes what earlier operands of `.BLKW` mean to the second pass, and then the labels behind
them are off.
-/

namespace LittleComputer

open Outcome

section

variable [Interpreter]

/-- Every label that stands before words is the address of the first of them. -/
def LabelsNameWords (symbols : SymbolTable) (statements : List Statement) : Prop :=
  ∀ visit ∈ (Encoding.walk symbols statements).visits, ∀ name ∈ visit.2.label,
    ∀ cell ∈ (Encoding.emitted symbols visit.1 visit.2).head?,
      symbols.lookup? name = some cell.address

instance (symbols : SymbolTable) (statements : List Statement) :
    Decidable (LabelsNameWords symbols statements) :=
  inferInstanceAs (Decidable (∀ visit ∈ (Encoding.walk symbols statements).visits,
    ∀ name ∈ visit.2.label, ∀ cell ∈ (Encoding.emitted symbols visit.1 visit.2).head?,
      symbols.lookup? name = some cell.address))

/-- Both passes reach every labelled statement that has words at the same address. -/
def SameAddressAtLabels (predefined symbols : SymbolTable) (statements : List Statement) : Prop :=
  ∀ (i : Nat) (v : Survey) (e : Encoding) (s : Statement),
    (Survey.walk predefined statements).visits[i]? = some (v, s) →
    (Encoding.walk symbols statements).visits[i]? = some (e, s) →
    s.label ≠ none → Encoding.emitted symbols e s ≠ [] →
      e.locator.address = v.locator.address

namespace Survey

variable {v v' final : Survey} {s : Statement} {statements : List Statement}
  {visits : List (Survey × Statement)}

theorem within_of_step (h : v.step s = (v', none)) : v.symbols.Within v'.symbols := by
  obtain ⟨m, -, hdef⟩ := defines_of_step h
  unfold Defines at hdef
  split at hdef
  · rw [hdef]
    exact .refl _
  · exact SymbolTable.within_of_define hdef

theorem within_of_runs (h : Walk.Runs step v statements visits final) :
    v.symbols.Within final.symbols := by
  induction h with
  | nil v => exact .refl _
  | stop rest hstep hend => exact within_of_step hstep
  | next hstep hend hrest ih => exact (within_of_step hstep).trans ih

theorem label_of_step {name : Text} (h : v.step s = (v', none)) (hname : s.label = some name) :
    ∃ m, v.mark s = .ok m ∧ m.locator.address < addressLimit ∧
      v'.symbols.addresses[name.upper]? = some (UInt16.ofNat m.locator.address) := by
  obtain ⟨m, hmark, hdef⟩ := defines_of_step h
  unfold Defines at hdef
  rw [hname] at hdef
  refine ⟨m, hmark, ?_, SymbolTable.addresses_of_define hdef⟩
  exact Scope.arrive_label (by rw [hname]; nofun) (arrive_of_mark hmark).1

/-- A label has the address at which the first pass arrived at its statement, to the end of the
pass. -/
theorem label_of_runs (h : Walk.Runs step v statements visits final) {visit : Survey × Statement}
    (hvisit : visit ∈ visits) {name : Text} (hname : visit.2.label = some name) :
    ∃ m, visit.1.mark visit.2 = .ok m ∧ m.locator.address < addressLimit ∧
      final.symbols.addresses[name.upper]? = some (UInt16.ofNat m.locator.address) := by
  induction h with
  | nil v => cases hvisit
  | stop rest hstep hend =>
    cases List.mem_singleton.mp hvisit
    exact label_of_step hstep hname
  | next hstep hend hrest ih =>
    rcases List.mem_cons.mp hvisit with rfl | hvisit
    · obtain ⟨m, hmark, hlimit, hm⟩ := label_of_step hstep hname
      exact ⟨m, hmark, hlimit, within_of_runs hrest _ _ hm⟩
    · exact ih hvisit

end Survey

namespace Encoding

variable {e e' : Encoding} {symbols : SymbolTable} {s : Statement}

theorem ne_orig_of_emitted {cell : Cell} (hcell : (emitted symbols e s).head? = some cell) :
    s.operation ≠ .keyword .orig := by
  intro hop
  unfold emitted at hcell
  split at hcell
  · cases hcell
  · simp [Scope.words, hop, Cell.place] at hcell

/-- The first word of a statement lies at the address at which the second pass reached it. -/
theorem address_of_emitted {cell : Cell} (h : step symbols e s = (e', none))
    (hcell : (emitted symbols e s).head? = some cell) :
    cell.address.toNat = e.locator.address := by
  obtain ⟨m, words, hmark, -⟩ := emitted_of_step h
  rw [address_of_head h hmark hcell]
  exact Scope.arrive_address (ne_orig_of_emitted hcell) (mark_eq_ok.mp hmark).1

end Encoding

/-- A label is the address of the first word behind it exactly if both passes reach its statement at
the same address. -/
theorem lookup_iff_same_address {statements : List Statement}
    {first final : Survey} {visits : List (Survey × Statement)} {v : Survey} {e e' : Encoding}
    {s : Statement} {name : Text} {cell : Cell}
    (hrun : Walk.Runs Survey.step first statements visits final) (hvisit : (v, s) ∈ visits)
    (hstep : Encoding.step final.symbols e s = (e', none)) (hname : s.label = some name)
    (hcell : (Encoding.emitted final.symbols e s).head? = some cell) :
    final.symbols.lookup? name = some cell.address ↔ e.locator.address = v.locator.address := by
  obtain ⟨m, hmark, hlimit, hlabel⟩ := Survey.label_of_runs hrun hvisit hname
  have hm : m.locator.address = v.locator.address :=
    Scope.arrive_address (Encoding.ne_orig_of_emitted hcell) (Survey.arrive_of_mark hmark).1
  have he := Encoding.address_of_emitted hstep hcell
  have hword : (UInt16.ofNat m.locator.address).toNat = m.locator.address :=
    UInt16.toNat_ofNat_of_lt' hlimit
  unfold SymbolTable.lookup?
  rw [hlabel, Option.some_inj, ← UInt16.toNat_inj, hword, he, hm, eq_comm]

/-- The statements that an assembler takes a source apart into. -/
def Assembler.statementsOf (a : Assembler) (source : Input) : List Statement :=
  (Listing.ofLines a.implicitLabels source.read.sourceLines).statements

namespace Assembler

variable {a : Assembler} {source : Input} {prog : Program}

/-- The four stages of assembling, each reached only if the ones before it went well. -/
theorem assemble_result (a : Assembler) (source : Input) :
    (a.assemble source).result =
      match source.read.fault with
      | some fault => .error (.plain fault)
      | none =>
        match (Listing.ofLines a.implicitLabels source.read.sourceLines).error with
        | some error => .error error
        | none =>
          match (a.survey (a.statementsOf source)).result with
          | (_, some error) => .error error
          | (symbols, none) => (a.encode (a.statementsOf source) symbols).result := by
  unfold assemble assembleLines statementsOf
  simp only
  cases source.read.fault with
  | some fault => rfl
  | none =>
    rcases Listing.ofLines a.implicitLabels source.read.sourceLines with ⟨statements, _ | error⟩
    · simp only
      unfold assembleStatements
      rcases a.survey statements with ⟨⟨symbols, _ | error⟩, log⟩
      · rfl
      · rfl
    · rfl

/-- A source that assembles was surveyed and encoded without a fault. -/
theorem passes_of_assemble (h : (a.assemble source).result = .ok prog) :
    (a.survey (a.statementsOf source)).result = (prog.symbols, none) ∧
      (a.encode (a.statementsOf source) prog.symbols).result = .ok prog := by
  rw [assemble_result] at h
  split at h
  · cases h
  · split at h
    · cases h
    · split at h
      · cases h
      · rename_i symbols hsurvey
        obtain ⟨-, -, -, hsymbols⟩ := runs_of_encode h
        rw [hsymbols]
        exact ⟨hsurvey, h⟩

end Assembler

section

variable {predefined symbols : SymbolTable} {statements : List Statement}

/-- The labels of a program are right exactly where its passes agree. -/
theorem labelsNameWords_iff_sameAddress
    (hfirst : Walk.Runs Survey.step (.start predefined) statements
      (Survey.walk predefined statements).visits (Survey.walk predefined statements).final)
    (hsymbols : (Survey.walk predefined statements).final.symbols = symbols)
    (hsecond : Walk.Runs (Encoding.step symbols) .start statements
      (Encoding.walk symbols statements).visits (Encoding.walk symbols statements).final) :
    LabelsNameWords symbols statements ↔ SameAddressAtLabels predefined symbols statements := by
  have hsame : ∀ {v : Survey} {e : Encoding} {s : Statement} {name : Text} {cell : Cell},
      (v, s) ∈ (Survey.walk predefined statements).visits →
      (e, s) ∈ (Encoding.walk symbols statements).visits → s.label = some name →
      (Encoding.emitted symbols e s).head? = some cell →
      (symbols.lookup? name = some cell.address ↔ e.locator.address = v.locator.address) := by
    intro v e s name cell hv he hname hcell
    obtain ⟨e', hstep⟩ := hsecond.step_of_mem he
    subst hsymbols
    exact lookup_iff_same_address hfirst hv hstep hname hcell
  constructor
  · intro hlabels i v e s hv he hlabel hwords
    obtain ⟨name, hname⟩ := Option.ne_none_iff_exists'.mp hlabel
    obtain ⟨cell, rest, hcells⟩ := List.exists_cons_of_ne_nil hwords
    have hcell : (Encoding.emitted symbols e s).head? = some cell := by rw [hcells]; rfl
    have hmem := List.mem_of_getElem? he
    exact (hsame (List.mem_of_getElem? hv) hmem hname hcell).mp
      (hlabels (e, s) hmem name hname cell hcell)
  · rintro hpasses ⟨e, s⟩ hmem name hname cell hcell
    obtain ⟨i, he⟩ := List.getElem?_of_mem hmem
    -- both passes visit the statements up to the first `.END`, so the first one has an i-th visit
    -- too
    have hstatements : ((Survey.walk predefined statements).visits.map (·.2))[i]? = some s := by
      rw [hfirst.visited, ← hsecond.visited, List.getElem?_map, he]
      rfl
    rw [List.getElem?_map] at hstatements
    obtain ⟨⟨v, _⟩, hv, rfl⟩ := Option.map_eq_some_iff.mp hstatements
    refine (hsame (List.mem_of_getElem? hv) hmem hname hcell).mpr (hpasses i v e _ hv he ?_ ?_)
    · rw [Option.mem_def.mp hname]
      nofun
    · intro hnil
      rw [Option.mem_def, hnil] at hcell
      cases hcell

/-- Passes that follow each other reach every statement at the same address. -/
theorem sameAddress_of_follows
    (h : Encoding.Follows (Encoding.walk symbols statements)
      ((Survey.walk predefined statements).trace Survey.locator)
      (Survey.walk predefined statements).final.locator)
    (herror : (Encoding.walk symbols statements).error = none) :
    SameAddressAtLabels predefined symbols statements := by
  intro i v e s hv he _ _
  have htrace := congrArg (·[i]?) (h.arrives herror).1
  simp only [Walk.trace, List.getElem?_map, hv, he, Option.map_some, Option.some_inj] at htrace
  rw [(Prod.mk.inj htrace).1]

end

/-- When labels name the words they stand before. In a source that assembles they do exactly if both
passes reach every labelled statement with words at the same address; and that is so if no label is
`PC` or `LINENO`. -/
theorem labels_name_words_iff [Interpreter.Steady] (a : Assembler) (source : Input) (prog : Program)
    (h : (a.assemble source).result = .ok prog) :
    (∃ predefined, SymbolTable.empty.defineAll a.predefined.toList = .ok predefined ∧
      (LabelsNameWords prog.symbols (a.statementsOf source) ↔
        SameAddressAtLabels predefined prog.symbols (a.statementsOf source))) ∧
    ((∀ s ∈ a.statementsOf source, s.label ≠ some "PC" ∧ s.label ≠ some "LINENO") →
      LabelsNameWords prog.symbols (a.statementsOf source)) := by
  obtain ⟨hsurvey, hencode⟩ := Assembler.passes_of_assemble h
  obtain ⟨predefined, hdef, hfirst, hsymbols⟩ := Assembler.runs_of_survey hsurvey
  obtain ⟨hsecond, -⟩ := Assembler.runs_of_encode hencode
  have hiff := labelsNameWords_iff_sameAddress hfirst hsymbols hsecond
  refine ⟨⟨predefined, hdef, hiff⟩, fun hlabels => hiff.mpr ?_⟩
  have hgrow : (Survey.walk predefined (a.statementsOf source)).final.symbols.GrowsTo
      prog.symbols := by
    rw [hsymbols]
    exact .refl _
  have hfollows := Encoding.follows_of_runs (e := .start) hfirst
    (fun s hs => Listing.hidesNothing hs (hlabels s hs)) hgrow rfl
  exact sameAddress_of_follows hfollows (Assembler.no_error_of_encode hencode)

end

/-- A source whose second label is reserved space that depends on the first. -/
def reservingSource : Input :=
  ⟨"TABLE: .BLKW $(LINENO + 1)\nNEXT: .BLKW $((NEXT - TABLE) // 2)\nBR TABLE\n", false⟩

/-- The labels of the source that reserves space by its labels are right. -/
theorem labels_name_words_iff_reserving :
    ∃ prog, (Assembler.assemble {} reservingSource).result = .ok prog ∧
      prog.cells.length = 5 ∧
      LabelsNameWords prog.symbols (Assembler.statementsOf {} reservingSource) := by
  have hok : ∃ prog, (Assembler.assemble {} reservingSource).result = .ok prog ∧
      prog.cells.length = 5 := exists_ok_of_any (by decide +kernel)
  have hlabels : ∀ s ∈ Assembler.statementsOf {} reservingSource,
      s.label ≠ some "PC" ∧ s.label ≠ some "LINENO" := by decide +kernel
  obtain ⟨prog, hprog, hlength⟩ := hok
  exact ⟨prog, hprog, hlength, (labels_name_words_iff {} reservingSource prog hprog).2 hlabels⟩

/-! ## Labels that hide a predeclared name

In each of the two sources the operand of `.BLKW` means one thing to the first pass, which does not
know the label yet, and another thing to the second. -/

def hidingAddress : Input := ⟨".BLKW $(PC - 0x2FFF)\nPC: .FILL 7\n", false⟩

def hidingLineNumber : Input := ⟨".BLKW $(LINENO & 3)\nLINENO: .FILL 7\n", false⟩

/-- Either of the predeclared names, as a label, can miss the word that it stands before: the label
is `x3002` and the word of its line is the last cell, which lies behind that. -/
theorem labels_miss_words :
    (∃ prog, (Assembler.assemble {} hidingAddress).result = .ok prog ∧
      prog.symbols.lookup? "PC" = some 0x3002 ∧
      (prog.cells.getLast?.map fun cell => (cell.line.number, cell.address)) = some (2, 0x3006) ∧
      ¬ LabelsNameWords prog.symbols (Assembler.statementsOf {} hidingAddress)) ∧
    ∃ prog, (Assembler.assemble {} hidingLineNumber).result = .ok prog ∧
      prog.symbols.lookup? "LINENO" = some 0x3002 ∧
      (prog.cells.getLast?.map fun cell => (cell.line.number, cell.address)) = some (2, 0x3004) ∧
      ¬ LabelsNameWords prog.symbols (Assembler.statementsOf {} hidingLineNumber) := by
  constructor
  · exact exists_ok_of_any (by decide +kernel)
  · exact exists_ok_of_any (by decide +kernel)

end LittleComputer
