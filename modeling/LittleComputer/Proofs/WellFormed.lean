import LittleComputer.Expression.Evaluation
import LittleComputer.Proofs.FaultLocation

/-!
# Statements that a listing holds

Statements can be built by hand, with any text for a label and any text for an operand. The ones of
a listing are tame: their labels are names in upper case, their keywords are known, a statement
without a keyword has no operands, and no operand is empty. The second pass relies on the last of
these where it looks at the first character of an operand, so it never comes to look at nothing.

What is left to end the assembler before its time is the interpreter of expressions, if it breaks
down over an operand.
-/

namespace LittleComputer

open Outcome

/-! ## Words are not empty -/

namespace WordScan

variable {s : WordScan}

theorem ne_nil_flush (h : ∀ w ∈ s.words, w ≠ []) : ∀ w ∈ s.flush.words, w ≠ [] := by
  unfold flush
  split
  · exact h
  · rename_i hword
    intro w hw
    rcases List.mem_cons.mp hw with rfl | hw
    · intro hnil
      rw [List.reverse_eq_nil_iff.mp hnil] at hword
      exact hword rfl
    · exact h w hw

theorem ne_nil_step (g : Glyph) (h : ∀ w ∈ s.words, w ≠ []) :
    ∀ w ∈ (s.step g).words, w ≠ [] := by
  unfold step
  simp only
  split
  · exact ne_nil_flush h
  · exact h

theorem ne_nil_foldl (t : Text) (h : ∀ w ∈ s.words, w ≠ []) :
    ∀ w ∈ (t.foldl step s).words, w ≠ [] := by
  induction t generalizing s with
  | nil => exact h
  | cons g rest ih => exact ih (ne_nil_step g h)

end WordScan

theorem Text.ne_nil_of_mem_words {t word : Text} (h : word ∈ t.words) : word ≠ [] := by
  have hscan : ∀ w ∈ (t.foldl WordScan.step .start).words, w ≠ [] :=
    WordScan.ne_nil_foldl t nofun
  exact WordScan.ne_nil_flush hscan word (List.mem_reverse.mp h)

/-! ## Names of labels -/

/-- A capital letter of ASCII or an underscore. -/
def Glyph.startsName : Glyph → Bool
  | .char c => c.isUpper || c == '_'
  | .stray _ => false

/-- A capital letter of ASCII, a digit or an underscore. -/
def Glyph.continuesName : Glyph → Bool
  | .char c => c.isUpper || c.isDigit || c == '_'
  | .stray _ => false

/-- Whether a text could be the name of a label: capital letters, digits and underscores, with no
digit in front. -/
def Text.isName : Text → Bool
  | [] => false
  | g :: rest => g.startsName && rest.all Glyph.continuesName

theorem upperChar_starts {c : Char} (h : (Glyph.char c).startsIdentifier = true) :
    (Glyph.char (upperChar c)).startsName = true := by
  have htable : ∀ c : Char, c.toNat < 128 → (Glyph.char c).startsIdentifier = true →
      (Glyph.char (upperChar c)).startsName = true := ascii_of_numbers (by decide +kernel)
  exact htable c (Glyph.ascii_of_continues (Glyph.continues_of_starts h)) h

theorem upperChar_continues {c : Char} (h : (Glyph.char c).continuesIdentifier = true) :
    (Glyph.char (upperChar c)).continuesName = true := by
  have htable : ∀ c : Char, c.toNat < 128 → (Glyph.char c).continuesIdentifier = true →
      (Glyph.char (upperChar c)).continuesName = true := ascii_of_numbers (by decide +kernel)
  exact htable c (Glyph.ascii_of_continues h) h

namespace Text

variable {word name : Text}

theorem ofString_upper (t : Text) :
    (t.upper : Text) = t.map fun g => .char (upperChar g.scalar) := by
  unfold ofString
  rw [toList_upper]
  simp [scalars]

theorem isName_upper (h : word.isIdentifier = true) : isName (word.upper : Text) = true := by
  rw [ofString_upper]
  cases word with
  | nil => cases h
  | cons g rest =>
    simp only [isIdentifier, Bool.and_eq_true, List.all_eq_true] at h
    obtain ⟨hg, hrest⟩ := h
    simp only [List.map_cons, isName, Bool.and_eq_true, List.all_eq_true, List.mem_map]
    refine ⟨?_, ?_⟩
    · cases g with
      | char c => exact upperChar_starts hg
      | stray b => cases hg
    · rintro _ ⟨g', hg', rfl⟩
      have hcontinues := hrest g' hg'
      cases g' with
      | char c => exact upperChar_continues hcontinues
      | stray b => cases hcontinues

/-- The name of a label is no keyword, since keywords are told without regard to case. -/
theorem ofWord?_upper (word : Text) :
    Mnemonic.ofWord? (word.upper : Text) = Mnemonic.ofWord? word := by
  unfold Mnemonic.ofWord?
  rw [upper_upper]

end Text

theorem Register.ofWord?_eq_none {r d : Char} : Register.ofWord? [.char r, .char d] = none ↔
    ¬((r = 'R' ∨ r = 'r') ∧ 0x30 ≤ d.toNat ∧ d.toNat ≤ 0x37) := by
  by_cases h : (r = 'R' ∨ r = 'r') ∧ 0x30 ≤ d.toNat ∧ d.toNat ≤ 0x37
  · simp [Register.ofWord?, h]
  · simp [Register.ofWord?, h]

/-- The upper-case form of an identifier names a register only if the identifier does. -/
theorem Register.ofWord?_upper {word : Text} (hword : word.isIdentifier = true)
    (h : Register.ofWord? word = none) : Register.ofWord? (word.upper : Text) = none := by
  have htable : ∀ c : Char, c.toNat < 128 →
      (upperChar c = 'R' ∨ upperChar c = 'r' → c = 'R' ∨ c = 'r') ∧
      (0x30 ≤ (upperChar c).toNat ∧ (upperChar c).toNat ≤ 0x37 →
        0x30 ≤ c.toNat ∧ c.toNat ≤ 0x37) :=
    ascii_of_numbers (by decide +kernel)
  rw [Text.ofString_upper]
  match word, hword with
  | [], _ => rfl
  | [_], _ => rfl
  | _ :: _ :: _ :: _, _ => rfl
  | [.char c, .char d], hword =>
    simp only [Text.isIdentifier, List.all_cons, List.all_nil, Bool.and_true, Bool.and_eq_true]
      at hword
    obtain ⟨hletter, -⟩ :=
      htable c (Glyph.ascii_of_continues (Glyph.continues_of_starts hword.1))
    obtain ⟨-, hdigit⟩ := htable d (Glyph.ascii_of_continues hword.2)
    refine Register.ofWord?_eq_none.mpr fun hnames => ?_
    exact Register.ofWord?_eq_none.mp h ⟨hletter hnames.1, hdigit hnames.2⟩
  | [.stray _, _], hword => cases hword
  | [.char _, .stray _], hword =>
    simp [Text.isIdentifier, Glyph.continuesIdentifier] at hword

/-! ## Statements -/

/-- The number of an operation: mnemonics are numbered from 1, and 0 stands for none. -/
def Operation.number : Operation → Int
  | .empty => 0
  | .keyword m => m.number
  | .unlisted n => n

/-- Whether an operation has its place in a table with one entry for each mnemonic and one
for none. -/
def Operation.InTable (o : Operation) : Prop :=
  0 ≤ o.number ∧ o.number < Mnemonic.all.length + 1

/-- What holds of a statement that a line gave. -/
structure Statement.WellFormed (s : Statement) : Prop where
  label : ∀ name ∈ s.label,
    name.isName = true ∧ Mnemonic.ofWord? name = none ∧ Register.ofWord? name = none
  operation : s.operation = .empty ∨ s.operation.isListed = true
  bare : s.operation = .empty → s.operands = []
  operands : ∀ word ∈ s.operands, word ≠ []

namespace Statement

variable {implicitLabels : Bool} {line : SourceLine} {s : Statement}

theorem WellFormed.inTable (h : s.WellFormed) : s.operation.InTable := by
  have hnumber : ∀ m : Mnemonic, m.number ≤ Mnemonic.all.length := by
    intro m
    cases m <;> decide
  unfold Operation.InTable Operation.number
  rcases h.operation with hempty | hlisted
  · rw [hempty]
    decide
  · cases hop : s.operation with
    | empty => decide
    | keyword m =>
      have hm := hnumber m
      simp only
      omega
    | unlisted n =>
      rw [hop] at hlisted
      cases hlisted

theorem wellFormed_of_ofLine (h : ofLine implicitLabels line = .ok (some s)) : s.WellFormed := by
  have hname : ∀ name ∈ s.label,
      name.isName = true ∧ Mnemonic.ofWord? name = none ∧ Register.ofWord? name = none := by
    intro name hname
    obtain ⟨word, hword⟩ := labelName_of_ofLine h name hname
    obtain ⟨hidentifier, hmnemonic, hregister, rfl⟩ := Text.labelName_eq_ok.mp hword
    refine ⟨Text.isName_upper hidentifier, ?_, Register.ofWord?_upper hidentifier hregister⟩
    rw [Text.ofWord?_upper]
    exact hmnemonic
  obtain ⟨label, text, -, -, hwords⟩ := words_of_ofLine h
  have hwordsNil : ∀ word ∈ text.words, word ≠ [] := fun word => Text.ne_nil_of_mem_words
  obtain ⟨-, hs⟩ | ⟨word, m, hcut, -, hs⟩ | ⟨word, second, m, name, hcut, -, -, hs⟩ :=
    cases_of_ofWords hwords
  · have hoperands : s.operands = [] := by rw [hs]
    refine ⟨hname, .inl (by rw [hs]), fun _ => hoperands, ?_⟩
    rw [hoperands]
    nofun
  · have hop : s.operation = .keyword m := by rw [hs]
    refine ⟨hname, .inr (by rw [hop]; rfl), by rw [hop]; nofun, fun w hw => hwordsNil w ?_⟩
    rw [hcut]
    exact List.mem_cons_of_mem _ hw
  · have hop : s.operation = .keyword m := by rw [hs]
    refine ⟨hname, .inr (by rw [hop]; rfl), by rw [hop]; nofun, fun w hw => hwordsNil w ?_⟩
    rw [hcut]
    exact List.mem_cons_of_mem _ (List.mem_cons_of_mem _ hw)

end Statement

theorem Listing.wellFormed {implicitLabels : Bool} {lines : List SourceLine} {s : Statement}
    (h : s ∈ (ofLines implicitLabels lines).statements) : s.WellFormed := by
  obtain ⟨line, -, hs⟩ := mem_ofLines h
  exact Statement.wellFormed_of_ofLine hs

/-! ## What can crash -/

section Crashes

/-- A property of all faults that are no crashes. -/
def CoversVerdicts (p : Fault → Prop) : Prop :=
  ∀ fault : Fault, fault.isCrash = false → p fault

theorem CoversVerdicts.operands {p : Fault → Prop} (hp : CoversVerdicts p) : CoversOperands p :=
  fun fault _ hfault => hp fault hfault

section Checks

variable {p : Fault → Prop} (hp : CoversVerdicts p)

include hp

theorem Input.read_fails {source : Input} {fault : Fault} (h : source.read.fault = some fault) :
    p fault := by
  unfold read at h
  simp only at h
  split at h
  · split at h
    · cases h
      exact hp _ rfl
    · cases h
  · cases h
    exact hp _ rfl

theorem Text.labelName_fails (word : Text) : FailsOnlyWith p word.labelName := by
  unfold labelName
  exact .ite (.ok _) (.error (hp _ rfl))

theorem Statement.ofWords_fails (implicitLabels : Bool) (line : SourceLine) (label : Option Text)
    (words : List Text) : FailsOnlyWith p (ofWords implicitLabels line label words) := by
  unfold ofWords
  split
  · exact .ok _
  · split
    · exact .ok _
    · split
      · split
        · exact (Text.labelName_fails hp _).bind fun _ => .ok _
        · exact .error (hp _ rfl)
      · exact .error (hp _ rfl)

theorem Statement.ofLine_fails (implicitLabels : Bool) (line : SourceLine) :
    FailsOnlyWith p (ofLine implicitLabels line) := by
  unfold ofLine
  refine .ite (.ok _) ?_
  split
  · exact (Text.labelName_fails hp _).bind fun _ => (ofWords_fails hp _ _ _ _).map _
  · exact (ofWords_fails hp _ _ _ _).map _

theorem Locator.setOrigin_fails (loc : Locator) (origin : UInt16) :
    FailsOnlyWith p (loc.setOrigin origin) := by
  unfold setOrigin
  exact .ite (.error (hp _ rfl)) (.ite (.ite (.ok _) (.error (hp _ rfl))) (.ok _))

theorem Locator.advance_fails (loc : Locator) (size : Nat) :
    FailsOnlyWith p (loc.advance size) := by
  unfold advance
  exact .ite (.ok _) (.ite (.ok _) (.error (hp _ rfl)))

theorem Locator.here_fails (loc : Locator) : FailsOnlyWith p loc.here := by
  unfold here
  exact .ite (.ok _) (.error (hp _ rfl))

theorem SymbolTable.define_fails (t : SymbolTable) (name : Text) (a : UInt16) :
    FailsOnlyWith p (t.define name a) := by
  unfold define
  simp only
  split
  · exact .error (hp _ rfl)
  · exact .ok _

theorem SymbolTable.defineAll_fails (t : SymbolTable) (symbols : List (String × UInt16)) :
    FailsOnlyWith p (t.defineAll symbols) := by
  induction symbols generalizing t with
  | nil => exact .ok _
  | cons symbol rest ih =>
    unfold defineAll
    split
    · exact ih _
    · rename_i fault hdefine
      exact .error (t.define_fails hp _ _ fault hdefine)

/-! The passes, over a statement whose operands crash only with `p`. -/

variable [Interpreter] {s : Statement} (hwords : ∀ word ∈ s.operands, word.CrashesOnlyWith p)

include hwords

theorem Scope.relocate_fails (scope : Scope) (loc : Locator) :
    FailsOnlyWith p (scope.relocate loc s) := by
  unfold relocate
  split
  · exact (scope.origin_fails hp.operands hwords).bind fun origin => loc.setOrigin_fails hp origin
  · exact .ok _

theorem Survey.mark_fails (v : Survey) : FailsOnlyWith p (v.mark s) := by
  refine ((v.scope s).relocate_fails hp hwords v.locator).bind fun loc => ?_
  split
  · exact .ok _
  · exact (loc.here_fails hp).bind fun _ => (v.symbols.define_fails hp _ _).bind fun _ => .ok _

theorem Survey.pass_fails (v : Survey) : FailsOnlyWith p (v.pass s) :=
  ((v.scope s).size_fails hp.operands hwords).bind fun size =>
    (v.locator.advance_fails hp size).bind fun _ => .ok _

theorem Survey.step_fails {v next : Survey} {fault : Fault} (h : v.step s = (next, some fault)) :
    p fault := by
  unfold step at h
  split at h
  · rename_i fault' hmark
    cases h
    exact v.mark_fails hp hwords fault hmark
  · split at h
    · rename_i hpass
      cases h
      exact Survey.pass_fails hp hwords _ fault hpass
    · cases h

theorem Encoding.mark_fails (e : Encoding) (symbols : SymbolTable) :
    FailsOnlyWith p (e.mark symbols s) := by
  refine ((e.scope symbols s).relocate_fails hp hwords e.locator).bind fun loc => ?_
  split
  · exact .ok _
  · exact (loc.here_fails hp).bind fun _ => .ok _

theorem Encoding.step_fails {e next : Encoding} {symbols : SymbolTable} {fault : Fault}
    (h : step symbols e s = (next, some fault)) : p fault := by
  have hchain : FailsOnlyWith p (e.mark symbols s >>= fun marked => marked.emit symbols s) := by
    refine (e.mark_fails hp hwords symbols).bind fun marked => ?_
    refine ((marked.scope symbols s).words_fails hp.operands hwords).bind fun words => ?_
    exact (marked.locator.advance_fails hp _).bind fun _ => .ok _
  unfold step at h
  split at h
  · rename_i hfault
    cases h
    exact hchain fault hfault
  · cases h

end Checks

/-! Only expressions are left. -/

variable [Interpreter]

/-- The interpreter breaks down over an expression among the operands, with some names at least. -/
def Statement.BreaksDown (s : Statement) (reason : Text) : Prop :=
  ∃ word ∈ s.operands, ∃ body, word.expression? = some body ∧
    ∃ names, Interpreter.execute names (resultText body) = .crash reason

/-- If the fault is a crash, then it is one of the interpreter over an operand. -/
def Statement.AccountsFor (s : Statement) (fault : Fault) : Prop :=
  fault.isCrash = true → ∃ reason, s.BreaksDown reason ∧ fault = .crash reason

theorem Statement.coversVerdicts_accountsFor (s : Statement) : CoversVerdicts s.AccountsFor := by
  intro fault hfault hcrash
  rw [hfault] at hcrash
  cases hcrash

/-- An operand of a well-formed statement is not empty, so it crashes in the interpreter or not at
all. -/
theorem Statement.WellFormed.crashes {s : Statement} (h : s.WellFormed) :
    ∀ word ∈ s.operands, word.CrashesOnlyWith s.AccountsFor := by
  intro word hword
  refine ⟨fun hnil => absurd hnil (h.operands word hword), ?_⟩
  intro body hbody names reason hcrash _
  exact ⟨reason, ⟨word, hword, body, hbody, names, hcrash⟩, rfl⟩

/-- Assembling ends with a crash only if the interpreter breaks down over a statement. -/
theorem Assembler.crash_of_error {a : Assembler} {source : Input} {error : Error}
    (h : (a.assemble source).result = .error error) (hcrash : error.fault.isCrash = true) :
    ∃ s ∈ a.statementsOf source, ∃ reason, s.BreaksDown reason ∧
      error = .located s.line (.crash reason) := by
  have hverdicts : CoversVerdicts fun fault => fault.isCrash ≠ true :=
    fun _ hfault => Bool.eq_false_iff.mp hfault
  obtain ⟨fault, hread, rfl⟩ | ⟨line, -, fault, hline, rfl⟩ | ⟨fault, hseed, rfl⟩ |
    ⟨s, hs, v, v', fault, hstep, rfl⟩ | ⟨s, hs, symbols, e, e', fault, hstep, rfl⟩ :=
      cases_of_error h
  · exact absurd hcrash (Input.read_fails hverdicts hread)
  · exact absurd hcrash (Statement.ofLine_fails hverdicts a.implicitLabels line fault hline)
  · exact absurd hcrash
      (SymbolTable.defineAll_fails hverdicts .empty a.predefined.toList fault hseed)
  · have haccounts := Survey.step_fails s.coversVerdicts_accountsFor
      (Listing.wellFormed hs).crashes hstep
    obtain ⟨reason, hbreaks, rfl⟩ := haccounts hcrash
    exact ⟨s, hs, reason, hbreaks, rfl⟩
  · have haccounts := Encoding.step_fails s.coversVerdicts_accountsFor
      (Listing.wellFormed hs).crashes hstep
    obtain ⟨reason, hbreaks, rfl⟩ := haccounts hcrash
    exact ⟨s, hs, reason, hbreaks, rfl⟩

/-- The statements of every listing are well-formed, also those that stand before a line at fault.
So, in whatever is assembled, each statement has its place in the table of encoders, none has an
operand without a first character where one is looked at or words that do not fill its size, and a
program or a verdict on the source comes out unless the interpreter breaks down over
an expression. -/
theorem listed_statements_assemble_safely :
    (∀ (implicitLabels : Bool) (lines : List SourceLine),
      ∀ s ∈ (Listing.ofLines implicitLabels lines).statements, s.WellFormed) ∧
    ∀ (a : Assembler) (source : Input),
      (∀ s ∈ a.statementsOf source, s.operation.InTable ∧ ∀ scope : Scope,
        scope.words s ≠ .error .emptyOperand ∧
        ∀ words, scope.words s = .ok words → scope.size s = .ok (wordSize * words.length)) ∧
      ((∃ prog, (a.assemble source).result = .ok prog) ∨
        (∃ error, (a.assemble source).result = .error error ∧ error.fault.isCrash = false) ∨
        ∃ s ∈ a.statementsOf source, ∃ reason, s.BreaksDown reason ∧
          (a.assemble source).result = .error (.located s.line (.crash reason))) := by
  refine ⟨fun _ _ s hs => Listing.wellFormed hs, fun a source => ⟨fun s hs => ?_, ?_⟩⟩
  · have hform : s.WellFormed := Listing.wellFormed hs
    refine ⟨hform.inTable, fun scope =>
      ⟨fun hempty => ?_, fun words => Scope.size_of_words⟩⟩
    obtain ⟨reason, -, hreason⟩ := scope.words_fails s.coversVerdicts_accountsFor.operands
      hform.crashes _ hempty rfl
    cases hreason
  · cases hresult : (a.assemble source).result with
    | ok prog => exact .inl ⟨prog, rfl⟩
    | error error =>
      cases hcrash : error.fault.isCrash with
      | false => exact .inr (.inl ⟨error, rfl, hcrash⟩)
      | true =>
        obtain ⟨s, hs, reason, hbreaks, rfl⟩ := Assembler.crash_of_error hresult hcrash
        exact .inr (.inr ⟨s, hs, reason, hbreaks, rfl⟩)

end Crashes

/-- A source that starts with an `ADD` of odd quotes, commas and parentheses, before a line at
fault. -/
def oddSource : Input := ⟨"_a1: ADD R0,, R1 (\"x\nADD,,,\nR1: RET\n", false⟩

theorem listed_statements_assemble_safely_odd :
    ∃ s ∈ Assembler.statementsOf {} oddSource, s.label = some "_A1" ∧
      s.operands.length = 3 ∧
      s.WellFormed ∧ s.operation.InTable ∧
      (Scope.mk .empty 0x3000 1).words s ≠ .error .emptyOperand := by
  have hfound : ∃ s ∈ Assembler.statementsOf {} oddSource,
      s.label = some "_A1" ∧ s.operands.length = 3 := by decide +kernel
  obtain ⟨s, hs, hlabel, hlength⟩ := hfound
  obtain ⟨hforms, hsafe⟩ := listed_statements_assemble_safely
  obtain ⟨htable, hscope⟩ := (hsafe {} oddSource).1 s hs
  exact ⟨s, hs, hlabel, hlength, hforms false oddSource.read.sourceLines s hs, htable,
    (hscope _).1⟩

/-- A source that makes the interpreter break down: the step of the slice is too large for 64 bits
and wraps around to zero. -/
def breakingSource : Input := ⟨".FILL $(len(range(0,1,1<<62)[::4]))\n", false⟩

theorem assembling_breaks_down :
    ∃ error, (Assembler.assemble {} breakingSource).result = .error error ∧
      error = .located ⟨1, ".FILL $(len(range(0,1,1<<62)[::4]))"⟩
        (.crash "rangeLen: zero step") ∧
      error.fault.isCrash = true :=
  exists_error_of_run (by decide +kernel)

-- A statement built by hand can lack what the listing gives: here the last operand of an `ADD` is
-- empty.
example :
    (Scope.mk .empty 0x3000 1).words ⟨⟨1, ""⟩, none, .keyword .add, ["R0", "R1", []]⟩ =
    .error .emptyOperand := by rfl

end LittleComputer
