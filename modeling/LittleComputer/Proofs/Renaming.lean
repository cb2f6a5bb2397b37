import LittleComputer.Proofs.Layout
import LittleComputer.Proofs.Relocation
import LittleComputer.Proofs.SideBySide
import LittleComputer.Proofs.WellFormed

/-!
# Other names for labels

The labels of a source may get other names. Symbols come before numbers where an operand can be
either, so a new name must not be one that an operand has already: a label `X10` would capture the
number `x10`. With that granted, both passes do the same under both names. In the first pass the
tables stay images of one another. In the second an operand is a label in both sources, with the
same address, or it is none in either.
-/

namespace LittleComputer

open Outcome

/-! ## Sources under other names -/

/-- The new name of a label, in whatever case it is written. Other words stay. -/
def Text.renamed (labels : List Text) (r : Text → Text) (word : Text) : Text :=
  if (word.upper : Text) ∈ labels then r word.upper else word

def Operation.namesPlaces : Operation → Bool
  | .keyword m => m.namesPlaces
  | _ => false

/-- The statement with other names for its label and for the labels among its operands. Only
branches, `JSR`, `LEA` and `.FILL` look for labels there. -/
def Statement.renamed (labels : List Text) (r : Text → Text) (s : Statement) : Statement :=
  { s with
    label := s.label.map r
    operands := if s.operation.namesPlaces then s.operands.map (Text.renamed labels r)
      else s.operands }

def Statement.renameAll (r : Text → Text) (statements : List Statement) : List Statement :=
  statements.map (renamed (labels statements) r)

/-- What new names have to keep to: they are names of labels, no two labels get the same one, and
none of them is an operand already where labels are looked for. -/
structure Renaming (statements : List Statement) (r : Text → Text) : Prop where
  accepted : ∀ l ∈ Statement.labels statements, (r l).labelName = .ok (r l)
  injective : ∀ l ∈ Statement.labels statements, ∀ l' ∈ Statement.labels statements,
    r l = r l' →
    l = l'
  fresh : ∀ s ∈ statements, s.operation.namesPlaces = true → ∀ word ∈ s.operands,
    (word.upper : Text) ∉ Statement.labels statements →
      ∀ l ∈ Statement.labels statements, r l ≠ (word.upper : Text)

/-- The second table is the first one with its symbols under their new names. -/
structure SymbolTable.Renamed (labels : List Text) (r : Text → Text) (t t' : SymbolTable) :
    Prop where
  known : ∀ (name : String) (address : UInt16), t.addresses[name]? = some address →
    (name : Text) ∈ labels
  image : ∀ (name : String) (address : UInt16), t'.addresses[name]? = some address ↔
    ∃ old : String, t.addresses[old]? = some address ∧ r old = name

/-! ## Labels of a listing -/

theorem Register.ofWord?_of_upper {word : Text} (h : Register.ofWord? (word.upper : Text) = none) :
    Register.ofWord? word = none := by
  have hletter : upperChar 'r' = 'R' ∧ upperChar 'R' = 'R' := by decide
  have hdigit : ∀ c : Char, c.toNat < 128 → 0x30 ≤ c.toNat ∧ c.toNat ≤ 0x37 →
      upperChar c = c :=
    ascii_of_numbers (by decide +kernel)
  rw [Text.ofString_upper] at h
  unfold Register.ofWord?
  split
  · rename_i r d
    refine if_neg fun hregister => ?_
    obtain ⟨hr, hd⟩ := hregister
    have hupper : upperChar r = 'R' := by
      rcases hr with rfl | rfl
      · exact hletter.2
      · exact hletter.1
    have hsame : upperChar d = d := hdigit d (by omega) hd
    have hnone : Register.ofWord? [.char 'R', .char d] = none := by
      rw [← hupper, ← hsame]
      exact h
    exact Register.ofWord?_eq_none.mp hnone ⟨.inl rfl, hd⟩
  · rfl

/-- What is known of the names of labels: they are in upper case and name no register. -/
structure Statement.LabelsAccepted (statements : List Statement) : Prop where
  upper : ∀ l ∈ labels statements, (l.upper : Text) = l
  register : ∀ l ∈ labels statements, Register.ofWord? l = none

theorem Listing.labelsAccepted (implicitLabels : Bool) (lines : List SourceLine) :
    Statement.LabelsAccepted (ofLines implicitLabels lines).statements := by
  have hword : ∀ l ∈ Statement.labels (ofLines implicitLabels lines).statements,
      ∃ word, Text.labelName word = .ok l := by
    intro l hl
    obtain ⟨s, hs, hlabel⟩ := List.mem_filterMap.mp hl
    obtain ⟨line, -, hline⟩ := mem_ofLines hs
    exact Statement.labelName_of_ofLine hline l hlabel
  constructor
  · intro l hl
    obtain ⟨word, hname⟩ := hword l hl
    exact Text.upper_of_labelName hname
  · intro l hl
    obtain ⟨word, hname⟩ := hword l hl
    obtain ⟨hidentifier, -, hregister, rfl⟩ := Text.labelName_eq_ok.mp hname
    exact Register.ofWord?_upper hidentifier hregister

/-- A survey that goes through has defined every label. -/
theorem Assembler.defined_of_survey [Interpreter] {a : Assembler} {implicitLabels : Bool}
    {lines : List SourceLine}
    {symbols : SymbolTable}
    (h : (a.survey (Listing.ofLines implicitLabels lines).statements).result = (symbols, none)) :
    ∀ l ∈ Statement.labels (Listing.ofLines implicitLabels lines).statements,
      ∃ address, symbols.lookup? l = some address := by
  intro l hl
  obtain ⟨predefined, -, hruns, rfl⟩ := Assembler.runs_of_survey h
  have hmem : l.upper ∈ (Survey.walk predefined
      (Listing.ofLines implicitLabels lines).statements).final.symbols.addresses := by
    rw [Survey.mem_of_steps hruns.steps, hruns.visited, Listing.upToEnd_ofLines]
    exact .inr ⟨l, hl, rfl⟩
  exact Option.isSome_iff_exists.mp (Std.ExtTreeMap.mem_iff_isSome_getElem?.mp hmem)

/-! ## Tables -/

section Tables

variable {statements : List Statement} {r : Text → Text} (hr : Renaming statements r)
  (hlabels : Statement.LabelsAccepted statements) {t t' : SymbolTable}

theorem SymbolTable.renamed_empty (labels : List Text) (r : Text → Text) :
    SymbolTable.Renamed labels r .empty .empty := by
  constructor
  · intro name address h
    simp [SymbolTable.empty] at h
  · intro name address
    simp [SymbolTable.empty]

include hr in
theorem Renaming.upper {l : Text} (hl : l ∈ Statement.labels statements) :
    ((r l).upper : Text) = r l :=
  Text.upper_of_labelName (hr.accepted l hl)

namespace SymbolTable.Renamed

variable (h : Renamed (Statement.labels statements) r t t')

include hr hlabels h

/-- A label has the same address under both names. -/
theorem lookup? {l : Text} (hl : l ∈ Statement.labels statements) :
    t'.lookup? (r l) = t.lookup? l := by
  refine Option.ext fun address => ?_
  unfold SymbolTable.lookup?
  rw [h.image, hr.upper hl]
  constructor
  · rintro ⟨old, hold, hname⟩
    have hsame : (old : Text) = l := hr.injective _ (h.known old address hold) l hl hname
    have hkey : old = l.upper := Text.ofString_injective (by rw [hsame, hlabels.upper l hl])
    rw [← hkey]
    exact hold
  · intro hold
    exact ⟨l.upper, hold, by rw [hlabels.upper l hl]⟩

/-- Both tables get a label that they did not have. -/
theorem assign {l : Text} (hl : l ∈ Statement.labels statements)
    (hnew : t.addresses[l.upper]? = none)
    (address : UInt16) :
    Renamed (Statement.labels statements) r (t.assign l address) (t'.assign (r l) address) := by
  have hkey : (l.upper : Text) = l := hlabels.upper l hl
  constructor
  · intro name found hname
    rw [SymbolTable.addresses_assign] at hname
    split at hname
    · rename_i hsame
      rw [← hsame, hkey]
      exact hl
    · exact h.known name found hname
  · intro name found
    simp only [SymbolTable.addresses_assign]
    constructor
    · intro hname
      split at hname
      · rename_i hsame
        refine ⟨l.upper, by rw [if_pos rfl]; exact hname, ?_⟩
        rw [hkey, ← hsame, hr.upper hl]
      · obtain ⟨old, hold, himage⟩ := (h.image name found).mp hname
        have hne : l.upper ≠ old := by
          rintro rfl
          rw [hnew] at hold
          cases hold
        exact ⟨old, by rw [if_neg hne]; exact hold, himage⟩
    · rintro ⟨old, hold, himage⟩
      split at hold
      · rename_i hsame
        rw [← hsame, hkey, ← hr.upper hl] at himage
        rw [if_pos (Text.ofString_injective himage)]
        exact hold
      · -- another label has another new name
        rename_i hne
        have hother : (r l).upper ≠ name := by
          rintro rfl
          rw [hr.upper hl] at himage
          have hlabel : (old : Text) = l := hr.injective _ (h.known old found hold) l hl himage
          exact hne (Text.ofString_injective (by rw [hlabel, hkey]))
        rw [if_neg hother]
        exact (h.image name found).mpr ⟨old, hold, himage⟩

/-- A label is defined in both tables or is a duplicate in both. -/
theorem define {l : Text} (hl : l ∈ Statement.labels statements) (address : UInt16) :
    Beside (fun _ _ => True) (Renamed (Statement.labels statements) r) (t.define l address)
      (t'.define (r l) address) := by
  have hlookup : t'.addresses[(r l).upper]? = t.addresses[l.upper]? := h.lookup? hr hlabels hl
  cases hold : t.addresses[l.upper]? with
  | some found =>
    rw [hold] at hlookup
    unfold SymbolTable.define
    simp only [hold, hlookup]
    exact .error trivial
  | none =>
    rw [hold] at hlookup
    have hdefine : t.define l address = .ok (t.assign l address) :=
      SymbolTable.define_eq_ok.mpr ⟨hold, rfl⟩
    have hdefine' : t'.define (r l) address = .ok (t'.assign (r l) address) :=
      SymbolTable.define_eq_ok.mpr ⟨hlookup, rfl⟩
    rw [hdefine, hdefine']
    exact .ok (h.assign hr hlabels hl hold address)

omit hr hlabels in
/-- A word that is neither a label nor a new name is in no table. -/
theorem foreign {word : Text} (hword : (word.upper : Text) ∉ Statement.labels statements)
    (hnew : ∀ l ∈ Statement.labels statements, r l ≠ (word.upper : Text)) :
    t.lookup? word = none ∧ t'.lookup? word = none := by
  unfold SymbolTable.lookup?
  constructor
  · rw [Option.eq_none_iff_forall_ne_some]
    intro address hfound
    exact hword (h.known _ address hfound)
  · rw [Option.eq_none_iff_forall_ne_some]
    intro address hfound
    obtain ⟨old, hold, hsame⟩ := (h.image _ address).mp hfound
    exact hnew _ (h.known old address hold) hsame

end SymbolTable.Renamed

end Tables

/-! ## Operands -/

/-- An operand of a statement that looks for no labels, which is the same in both sources. -/
def Text.SameLiteral (w w' : Text) : Prop := w.expression? = none ∧ w' = w

theorem Scope.readAlike_sameLiteral [Interpreter] {m : Mnemonic} (hm : m.namesPlaces = false)
    (scope scope' : Scope) :
    ReadAlike (fun _ _ => True) Text.SameLiteral m scope scope' where
  register := by
    rintro w _ ⟨-, rfl⟩
    exact .refl (fun _ => trivial) _
  start := by
    rintro - w _ ⟨-, rfl⟩
    exact ⟨Iff.rfl, rfl⟩
  immediate := by
    rintro - w _ ⟨hliteral, rfl⟩ f
    rw [Scope.immediate_of_literal scope scope' hliteral]
    exact .refl (fun _ => trivial) _
  string := by
    rintro - w _ ⟨-, rfl⟩
    exact .refl (fun _ => trivial) _
  offset := fun hplaces => by rw [hm] at hplaces; cases hplaces
  word := fun hfill => by rw [hfill] at hm; cases hm

/-- An operand that is a label with the same address in both sources, or the same word and a symbol
in neither. -/
inductive Text.SamePlace (t t' : SymbolTable) (w w' : Text) : Prop
  | label (address : UInt16) (h : t.lookup? w = some address) (h' : t'.lookup? w' = some address)
      (hregister : Register.ofWord? w = none) (hregister' : Register.ofWord? w' = none)
  | word (hliteral : w.expression? = none) (hsame : w' = w) (h : t.lookup? w = none)
      (h' : t'.lookup? w = none)

theorem Scope.readAlike_samePlace [Interpreter] {m : Mnemonic} (hm : m.namesPlaces = true)
    (t t' : SymbolTable)
    (address line : Int) :
    ReadAlike (fun _ _ => True) (Text.SamePlace t t') m ⟨t, address, line⟩
      ⟨t', address, line⟩ where
  register := by
    rintro w w' (⟨_, -, -, hregister, hregister'⟩ | ⟨-, rfl, -, -⟩)
    · unfold Register.parse
      rw [hregister, hregister']
      exact .error trivial
    · exact .refl (fun _ => trivial) _
  start := fun hnone => by rw [hm] at hnone; cases hnone
  immediate := fun hnone => by rw [hm] at hnone; cases hnone
  string := fun hstringz => by rw [hstringz] at hm; cases hm
  offset := by
    rintro - w w' hw bits
    unfold Scope.offset
    obtain ⟨target, h, h', -, -⟩ | ⟨hliteral, rfl, h, h'⟩ := hw
    · simp only [h, h']
      exact .refl (fun _ => trivial) _
    · simp only [h, h']
      rw [Scope.immediateOrLabel_of_literal ⟨t, address, line⟩ ⟨t', address, line⟩ hliteral]
      exact .refl (fun _ => trivial) _
  word := by
    rintro - w w' hw
    unfold Scope.word
    obtain ⟨target, h, h', -, -⟩ | ⟨hliteral, rfl, h, h'⟩ := hw
    · simp only [h, h']
      exact .ok rfl
    · simp only [h, h']
      rw [Scope.immediateOrLabel_of_literal ⟨t, address, line⟩ ⟨t', address, line⟩ hliteral]
      exact .refl (fun _ => trivial) _

/-! ## Statements -/

section Statements

variable {statements : List Statement} {r : Text → Text} (hr : Renaming statements r)
  (hlabels : Statement.LabelsAccepted statements)
  (hliteral : ∀ s ∈ statements, ∀ word ∈ s.operands, word.expression? = none)
  {s : Statement}
  (hs : s ∈ statements)

include hliteral hs in
theorem Statement.sameLiterals (h : s.operation.namesPlaces = false) :
    List.Forall₂ Text.SameLiteral s.operands (s.renamed (labels statements) r).operands := by
  have hoperands : (s.renamed (labels statements) r).operands = s.operands := by
    simp [Statement.renamed, h]
  rw [hoperands]
  exact List.forall₂_same.mpr fun word hword => ⟨hliteral s hs word hword, rfl⟩

include hr hlabels hliteral hs in
theorem Statement.samePlaces {t t' : SymbolTable}
    (ht : SymbolTable.Renamed (labels statements) r t t')
    (hdefined : ∀ l ∈ labels statements, ∃ address, t.lookup? l = some address)
    (h : s.operation.namesPlaces = true) :
    List.Forall₂ (Text.SamePlace t t') s.operands (s.renamed (labels statements) r).operands := by
  have hoperands : (s.renamed (labels statements) r).operands =
      s.operands.map (Text.renamed (labels statements) r) := by
    simp [Statement.renamed, h]
  rw [hoperands, List.forall₂_map_right_iff, List.forall₂_same]
  intro word hword
  unfold Text.renamed
  split
  · rename_i hlabel
    obtain ⟨address, haddress⟩ := hdefined _ hlabel
    have hlookup := ht.lookup? hr hlabels hlabel
    obtain ⟨-, -, hregister', -⟩ := Text.labelName_eq_ok.mp (hr.accepted _ hlabel)
    refine .label address ?_ ?_ (Register.ofWord?_of_upper (hlabels.register _ hlabel)) hregister'
    · rw [← haddress]
      unfold SymbolTable.lookup?
      rw [Text.upper_upper]
    · rw [hlookup, haddress]
  · rename_i hforeign
    obtain ⟨h, h'⟩ := ht.foreign hforeign (hr.fresh s hs h word hword hforeign)
    exact .word (hliteral s hs word hword) rfl h h'

theorem Scope.size_of_namesPlaces [Interpreter] (scope : Scope)
    (h : s.operation.namesPlaces = true) :
    scope.size s = .ok wordSize := by
  unfold Scope.size
  split
  all_goals simp_all [Operation.namesPlaces, Mnemonic.namesPlaces, Mnemonic.flags?]

include hr hlabels hliteral hs in
/-- Both passes place a statement alike under both names. -/
theorem Statement.renamed_twins [Interpreter] :
    s.Twins (fun _ _ => True) (SymbolTable.Renamed (labels statements) r)
      (s.renamed (labels statements) r) where
  number := rfl
  operation := rfl
  label := by
    cases hlabel : s.label with
    | none =>
      simp only [Statement.renamed, hlabel, Option.map_none]
      exact .none
    | some l =>
      have hl : l ∈ labels statements := List.mem_filterMap.mpr ⟨s, hs, hlabel⟩
      simp only [Statement.renamed, hlabel, Option.map_some]
      exact .some fun t t' address ht => ht.define hr hlabels hl address
  origin := by
    intro horig t t' address line _
    have hplain : s.operation.namesPlaces = false := by
      rw [horig]
      rfl
    exact Scope.origin_beside (fun _ => trivial) (Scope.readAlike_sameLiteral rfl _ _) rfl
      (Statement.sameLiterals hliteral hs hplain)
  size := by
    intro t t' address line _
    cases h : s.operation.namesPlaces with
    | true =>
      rw [Scope.size_of_namesPlaces _ h,
        Scope.size_of_namesPlaces _ (s := s.renamed (labels statements) r) h]
      exact .ok rfl
    | false =>
      refine Scope.size_beside (fun _ => trivial) rfl (Statement.sameLiterals hliteral hs h)
        fun m hm => ?_
      rw [hm] at h
      exact Scope.readAlike_sameLiteral h _ _

include hr hlabels hliteral hs in
/-- Once all labels are known, a statement has the same words under both names. -/
theorem Statement.renamed_sameWords [Interpreter] {t t' : SymbolTable}
    (ht : SymbolTable.Renamed (labels statements) r t t')
    (hdefined : ∀ l ∈ labels statements, ∃ address, t.lookup? l = some address) :
    s.SameWords (fun _ _ => True) t t' (s.renamed (labels statements) r) := by
  intro address
  cases h : s.operation.namesPlaces with
  | true =>
    refine Scope.words_beside (fun _ => trivial) rfl
      (Statement.samePlaces hr hlabels hliteral hs ht hdefined h) fun m hm => ?_
    rw [hm] at h
    exact Scope.readAlike_samePlace h t t' address _
  | false =>
    refine Scope.words_beside (fun _ => trivial) rfl (Statement.sameLiterals hliteral hs h)
      fun m hm => ?_
    rw [hm] at h
    exact Scope.readAlike_sameLiteral h _ _

end Statements

/-! ## Programs -/

/-- Other names for labels do not change the code. Take the statements of a listing, with no
expression among their operands and no predefined symbols, and rename their labels. Both surveys go
through or both fail, and the second table is the first one with its symbols under their new names.
Then both encodings go through or both fail, and the programs have the same words at the same
addresses. -/
theorem renaming_keeps_code [Interpreter] (a : Assembler) (hseed : a.predefined = .empty)
    (implicitLabels : Bool)
    (lines : List SourceLine) (statements : List Statement)
    (hlisting : (Listing.ofLines implicitLabels lines).statements = statements)
    (hliteral : ∀ s ∈ statements, ∀ word ∈ s.operands, word.expression? = none)
    (r : Text → Text)
    (hr : Renaming statements r) :
    Beside (Error.Beside fun _ _ => True) (SymbolTable.Renamed (Statement.labels statements) r)
      (settled (a.survey statements).result)
        (settled (a.survey (Statement.renameAll r statements)).result) ∧
    ∀ symbols symbols', (a.survey statements).result = (symbols, none) →
      (a.survey (Statement.renameAll r statements)).result = (symbols', none) →
      Beside (Error.Beside fun _ _ => True)
        (Program.Beside (SymbolTable.Renamed (Statement.labels statements) r))
        (a.encode statements symbols).result
          (a.encode (Statement.renameAll r statements) symbols').result := by
  have hlabels : Statement.LabelsAccepted statements := by
    rw [← hlisting]
    exact Listing.labelsAccepted implicitLabels lines
  have hstart : ∀ seeded, SymbolTable.empty.defineAll a.predefined.toList = .ok seeded →
      SymbolTable.Renamed (Statement.labels statements) r seeded seeded := by
    intro seeded hdefine
    rw [hseed] at hdefine
    cases hdefine
    exact SymbolTable.renamed_empty _ r
  have htwins : List.Forall₂ (Statement.Twins (fun _ _ => True)
      (SymbolTable.Renamed (Statement.labels statements) r)) statements
        (Statement.renameAll r statements) := by
    unfold Statement.renameAll
    rw [List.forall₂_map_right_iff, List.forall₂_same]
    exact fun s hs => Statement.renamed_twins hr hlabels hliteral hs
  have hsurvey := Assembler.survey_beside (fun _ => trivial) a hstart htwins
  refine ⟨hsurvey, ?_⟩
  intro symbols symbols' hfirst hsecond
  have htables : SymbolTable.Renamed (Statement.labels statements) r symbols symbols' := by
    rw [hfirst, hsecond] at hsurvey
    exact hsurvey.of_ok
  have hdefined : ∀ l ∈ Statement.labels statements, ∃ address,
      symbols.lookup? l = some address := by
    rw [← hlisting] at hfirst ⊢
    exact Assembler.defined_of_survey hfirst
  refine Assembler.encode_beside (fun _ => trivial) a htables ?_
  unfold Statement.renameAll
  rw [List.forall₂_map_right_iff, List.forall₂_same]
  intro s hs
  exact ⟨Statement.renamed_twins hr hlabels hliteral hs,
    Statement.renamed_sameWords hr hlabels hliteral hs htables hdefined⟩

/-- A loop and a word, the label of which hides a number. -/
def hidingStatements : List Statement :=
  (Listing.ofLines false
    (SourceLine.ofTexts ["LOOP: LEA R1, x10", "BRp loop", "JSR Loop", ".FILL x20",
    "x10: .FILL X10", "TRAP x10", ".END"])).statements

/-- The loop and the word change names. -/
def swapNames (l : Text) : Text := if l = "LOOP" then "X10" else "LOOP"

def hidingSymbols (statements : List Statement) : SymbolTable :=
  (Assembler.survey {} statements).result.1

/-- With their names swapped, the loop and the word keep their code. -/
theorem renaming_keeps_code_swapping :
    Renaming hidingStatements swapNames ∧
    (Assembler.survey {} hidingStatements).result = (hidingSymbols hidingStatements, none) ∧
    (Assembler.survey {} (Statement.renameAll swapNames hidingStatements)).result =
      (hidingSymbols (Statement.renameAll swapNames hidingStatements), none) ∧
    ∃ prog prog',
      (Assembler.encode {} hidingStatements (hidingSymbols hidingStatements)).result = .ok prog ∧
      (Assembler.encode {} (Statement.renameAll swapNames hidingStatements)
        (hidingSymbols (Statement.renameAll swapNames hidingStatements))).result = .ok prog' ∧
      prog.words = [0xE203, 0x03FE, 0x4FFD, 0x0020, 0x3008, 0xF010] ∧
      Program.Beside (SymbolTable.Renamed (Statement.labels hidingStatements) swapNames) prog
        prog' := by
  have hlabels : Statement.labels hidingStatements = ["LOOP", "X10"] := by decide +kernel
  have haccepted : ∀ l ∈ [("LOOP" : Text), "X10"], (swapNames l).isIdentifier = true ∧
      Mnemonic.ofWord? (swapNames l) = none ∧ Register.ofWord? (swapNames l) = none ∧
      swapNames l = (swapNames l).upper := by decide +kernel
  have hr : Renaming hidingStatements swapNames := by
    constructor
    · intro l hl
      rw [hlabels] at hl
      exact Text.labelName_eq_ok.mpr (haccepted l hl)
    · rw [hlabels]
      decide +kernel
    · rw [hlabels]
      decide +kernel
  have hliteral : ∀ s ∈ hidingStatements, ∀ word ∈ s.operands, word.expression? = none := by
    decide +kernel
  have hfirst : (Assembler.survey {} hidingStatements).result =
      (hidingSymbols hidingStatements, none) :=
    Assembler.survey_eq (by decide +kernel)
  have hsecond : (Assembler.survey {} (Statement.renameAll swapNames hidingStatements)).result =
      (hidingSymbols (Statement.renameAll swapNames hidingStatements), none) :=
    Assembler.survey_eq (by decide +kernel)
  have hprog : ∃ prog,
      (Assembler.encode {} hidingStatements (hidingSymbols hidingStatements)).result =
      .ok prog ∧ prog.words = [0xE203, 0x03FE, 0x4FFD, 0x0020, 0x3008, 0xF010] :=
    exists_ok_of_any (by decide +kernel)
  obtain ⟨prog, hprog, hwords⟩ := hprog
  obtain ⟨-, hencode⟩ :=
    renaming_keeps_code {} rfl false _ hidingStatements rfl hliteral swapNames hr
  have hbeside := hencode _ _ hfirst hsecond
  obtain ⟨prog', hprog'⟩ := hbeside.exists_ok_iff.mp ⟨prog, hprog⟩
  rw [hprog, hprog'] at hbeside
  exact ⟨hr, hfirst, hsecond, prog, prog', hprog, hprog', hwords, hbeside.of_ok⟩

end LittleComputer
