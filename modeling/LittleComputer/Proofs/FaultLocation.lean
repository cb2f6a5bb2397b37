import LittleComputer.Proofs.LabelAddress
import LittleComputer.Proofs.Listing

/-!
# Where faults are found

Reading, taking lines apart, predefining symbols and the two passes can all fail. Once the lines are
read, every fault is one of a line: taking lines apart and the passes say which, and predefining
cannot fail, because the predefined names were put in upper case when they were given, so that no
two of them meet when that is done again. For the same reason it does not matter in which order they
are defined.
-/

namespace LittleComputer

open Outcome

/-! ## Predefined symbols -/

namespace SymbolTable

variable {t : SymbolTable} {symbols : List (String × UInt16)}

/-- All names of the table are in upper case already. -/
def Canonical (t : SymbolTable) : Prop := ∀ key ∈ t.addresses, (key : Text).upper = key

theorem canonical_empty : empty.Canonical := by
  intro key hkey
  simp [empty] at hkey

theorem Canonical.assign (h : t.Canonical) (name : Text) (address : UInt16) :
    (t.assign name address).Canonical := by
  intro key hkey
  rw [Std.ExtTreeMap.mem_iff_isSome_getElem?, addresses_assign] at hkey
  split at hkey
  · rename_i hname
    rw [← hname]
    exact name.upper_upper
  · exact h key (Std.ExtTreeMap.mem_iff_isSome_getElem?.mpr hkey)

/-- Symbols are defined without a fault if their names stay apart in upper case and are new. -/
theorem exists_defineAll (hapart : (symbols.map fun x => (x.1 : Text).upper).Nodup)
    (hnew : ∀ x ∈ symbols, t.addresses[(x.1 : Text).upper]? = none) :
    ∃ u, t.defineAll symbols = .ok u := by
  induction symbols generalizing t with
  | nil => exact ⟨t, rfl⟩
  | cons x rest ih =>
    obtain ⟨name, address⟩ := x
    rw [List.map_cons, List.nodup_cons] at hapart
    have hdefine : t.define name address = .ok (t.assign name address) :=
      define_eq_ok.mpr ⟨hnew (name, address) List.mem_cons_self, rfl⟩
    unfold defineAll
    rw [hdefine]
    refine ih hapart.2 fun y hy => ?_
    have hne : (name : Text).upper ≠ (y.1 : Text).upper := by
      intro heq
      exact hapart.1 (List.mem_map.mpr ⟨y, hy, heq.symm⟩)
    rw [addresses_assign, if_neg hne]
    exact hnew y (List.mem_cons_of_mem _ hy)

/-- A table of names in upper case is rebuilt from its symbols, in whatever order they
are defined. -/
theorem Canonical.defineAll (h : t.Canonical) (hperm : symbols.Perm t.toList) :
    empty.defineAll symbols = .ok t := by
  have hupper : ∀ x ∈ symbols, (x.1 : Text).upper = x.1 := by
    intro x hx
    refine h x.1 (Std.ExtTreeMap.mem_iff_isSome_getElem?.mpr ?_)
    rw [(mem_of_perm hperm).mp hx]
    rfl
  -- the names are in upper case already, so that putting them there again brings no two together
  have hapart : (symbols.map fun x => (x.1 : Text).upper).Nodup := by
    rw [List.map_congr_left hupper, (hperm.map Prod.fst).nodup_iff]
    refine List.pairwise_map.mpr (Std.ExtTreeMap.distinct_keys_toList.imp fun hne heq => hne ?_)
    rw [heq]
    exact Std.ReflCmp.compare_self
  obtain ⟨u, hu⟩ := exists_defineAll (t := empty) hapart fun x _ => by simp [empty]
  rw [hu]
  have hsame : u.addresses = t.addresses := by
    refine Std.ExtTreeMap.ext_getElem? fun key => Option.ext fun a => ?_
    refine (addresses_of_defineAll hu key a).trans ⟨?_, fun hkey => ?_⟩
    · rintro (hempty | ⟨name, hname, rfl⟩)
      · simp [empty] at hempty
      · rw [hupper (name, a) hname]
        exact (mem_of_perm hperm).mp hname
    · have hmember := (mem_of_perm hperm).mpr hkey
      exact .inr ⟨key, hmember, hupper (key, a) hmember⟩
  cases u
  cases t
  cases hsame
  rfl

end SymbolTable

namespace Assembler

/-- Predefines one symbol after the other. -/
def predefineAll (a : Assembler) (symbols : List (Text × UInt16)) : Assembler :=
  symbols.foldl (fun a symbol => a.predefine symbol.1 symbol.2) a

theorem canonical_predefineAll {a : Assembler} (h : a.predefined.Canonical)
    (symbols : List (Text × UInt16)) : (a.predefineAll symbols).predefined.Canonical := by
  unfold predefineAll
  induction symbols generalizing a with
  | nil => exact h
  | cons symbol rest ih =>
    exact ih (a := a.predefine symbol.1 symbol.2) (h.assign symbol.1 symbol.2)

variable [Interpreter]

/-- Assembling, if the predefined symbols are taken in the order given. -/
def assembleIn (a : Assembler) (order : List (String × UInt16)) (source : Input) :
    Logged (Except Error Program) :=
  match source.read.fault with
  | some fault => ⟨.error (.plain fault), []⟩
  | none =>
    match Listing.ofLines a.implicitLabels source.read.sourceLines with
    | ⟨_, some error⟩ => ⟨.error error, []⟩
    | ⟨statements, none⟩ =>
      match SymbolTable.empty.defineAll order with
      | .error fault => ⟨.error (.plain fault), []⟩
      | .ok seeded =>
        let first := Survey.walk seeded statements
        let log := a.logOf "pass1" Survey.locator first
        match first.error with
        | some error => ⟨.error error, log⟩
        | none =>
          let encoded := a.encode statements first.final.symbols
          ⟨encoded.result, log ++ encoded.log⟩

theorem assembleIn_toList (a : Assembler) (source : Input) :
    a.assembleIn a.predefined.toList source = a.assemble source := by
  unfold assembleIn assemble assembleLines
  simp only
  cases source.read.fault with
  | some fault => rfl
  | none =>
    rcases Listing.ofLines a.implicitLabels source.read.sourceLines with ⟨statements, _ | error⟩
    · simp only
      unfold assembleStatements survey
      cases SymbolTable.empty.defineAll a.predefined.toList with
      | error fault => rfl
      | ok seeded =>
        simp only
        cases (Survey.walk seeded statements).error with
        | some error => rfl
        | none => rfl
    · rfl

/-- The order of the predefined symbols counts only for the table that they make. -/
theorem assembleIn_congr (a : Assembler) (source : Input) {order order' : List (String × UInt16)}
    (h : SymbolTable.empty.defineAll order = SymbolTable.empty.defineAll order') :
    a.assembleIn order source = a.assembleIn order' source := by
  unfold assembleIn
  rw [h]

end Assembler

/-! ## Faults of lines -/

theorem Listing.error_of_ofLines {implicitLabels : Bool} {lines : List SourceLine} {error : Error}
    (h : (ofLines implicitLabels lines).error = some error) :
    ∃ line ∈ lines, ∃ fault, Statement.ofLine implicitLabels line = .error fault ∧
      error = .located line fault := by
  induction lines with
  | nil => cases h
  | cons line rest ih =>
    have hrest : (ofLines implicitLabels rest).error = some error →
        ∃ l ∈ line :: rest, ∃ fault, Statement.ofLine implicitLabels l = .error fault ∧
          error = .located l fault := by
      intro h
      obtain ⟨l, hl, hfault⟩ := ih h
      exact ⟨l, List.mem_cons_of_mem line hl, hfault⟩
    cases hline : Statement.ofLine implicitLabels line with
    | error fault =>
      rw [ofLines_error hline] at h
      cases h
      exact ⟨line, List.mem_cons_self, fault, hline, rfl⟩
    | ok found =>
      cases found with
      | none =>
        rw [ofLines_none hline] at h
        exact hrest h
      | some s =>
        cases hend : s.isEnd with
        | true =>
          rw [ofLines_end hline hend] at h
          cases h
        | false =>
          rw [ofLines_next hline hend] at h
          exact hrest h

/-- Lines are numbered from 1 and keep their texts. -/
theorem SourceLine.exists_of_mem {texts : List Text} {line : SourceLine}
    (h : line ∈ ofTexts texts) :
    ∃ k : Nat, 1 ≤ k ∧ k ≤ texts.length ∧ texts[k - 1]? = some line.text ∧
      line.number = k := by
  obtain ⟨⟨text, index⟩, hmem, rfl⟩ := List.mem_map.mp h
  have hindex : texts[index]? = some text := List.mk_mem_zipIdx_iff_getElem?.mp hmem
  have hlength := (List.getElem?_eq_some_iff.mp hindex).1
  refine ⟨index + 1, by omega, by omega, ?_, by simp⟩
  rw [Nat.add_sub_cancel]
  exact hindex

namespace Assembler

variable {a : Assembler} {source : Input} {error : Error}

theorem line_of_statementsOf {s : Statement} (h : s ∈ a.statementsOf source) :
    s.line ∈ source.read.sourceLines :=
  (Listing.lines_sublist _ _).subset (List.mem_map_of_mem h)

variable [Interpreter]

/-- All the ways in which assembling fails. -/
theorem cases_of_error (h : (a.assemble source).result = .error error) :
    (∃ fault, source.read.fault = some fault ∧ error = .plain fault) ∨
    (∃ line ∈ source.read.sourceLines, ∃ fault, Statement.ofLine a.implicitLabels line =
      .error fault ∧
      error = .located line fault) ∨
    (∃ fault, SymbolTable.empty.defineAll a.predefined.toList = .error fault ∧
      error = .plain fault) ∨
    (∃ s ∈ a.statementsOf source, ∃ v v' fault, Survey.step v s = (v', some fault) ∧
      error = .located s.line fault) ∨
    ∃ s ∈ a.statementsOf source, ∃ symbols e e' fault,
      Encoding.step symbols e s = (e', some fault) ∧
      error = .located s.line fault := by
  rw [assemble_result] at h
  split at h
  · rename_i fault hread
    cases h
    exact .inl ⟨fault, hread, rfl⟩
  · split at h
    · rename_i hlisting
      cases h
      exact .inr (.inl (Listing.error_of_ofLines hlisting))
    · split at h
      · rename_i hsurvey
        cases h
        unfold survey at hsurvey
        split at hsurvey
        · rename_i fault hseed
          cases hsurvey
          exact .inr (.inr (.inl ⟨fault, hseed, rfl⟩))
        · obtain ⟨v, v', s, fault, hs, hstep, herror⟩ :=
            Walk.fault_of_error (Prod.mk.inj hsurvey).2
          exact .inr (.inr (.inr (.inl ⟨s, hs, v, v', fault, hstep, herror⟩)))
      · obtain ⟨e, e', s, fault, hs, hstep, herror⟩ := Walk.fault_of_error (error_of_encode h)
        exact .inr (.inr (.inr (.inr ⟨s, hs, _, e, e', fault, hstep, herror⟩)))

/-- Once the lines are read and the symbols predefined, what fails is a line. -/
theorem located_of_error (hread : source.read.fault = none) (hnames : a.predefined.Canonical)
    (h : (a.assemble source).result = .error error) :
    ∃ line ∈ source.read.sourceLines, ∃ fault, error = .located line fault := by
  obtain ⟨fault, hfault, -⟩ | ⟨line, hline, fault, -, herror⟩ | ⟨fault, hseed, -⟩ |
    ⟨s, hs, -, -, fault, -, herror⟩ | ⟨s, hs, -, -, -, fault, -, herror⟩ := cases_of_error h
  · rw [hread] at hfault
    cases hfault
  · exact ⟨line, hline, fault, herror⟩
  · rw [hnames.defineAll (.refl _)] at hseed
    cases hseed
  · exact ⟨s.line, line_of_statementsOf hs, fault, herror⟩
  · exact ⟨s.line, line_of_statementsOf hs, fault, herror⟩

end Assembler

/-- Whatever is predefined, if the lines of a source can be read, then a fault in it is found at one
of its lines, of which it has the number and the text; and in whatever order the predefined symbols
are taken, there is no fault in defining them and the same comes of the source. -/
theorem faults_are_located [Interpreter] (verbose implicitLabels : Bool)
    (symbols : List (Text × UInt16))
    (source : Input) (hread : source.read.fault = none) :
    let a := Assembler.predefineAll ⟨verbose, implicitLabels, .empty⟩ symbols
    (∀ error, (a.assemble source).result = .error error →
      ∃ (k : Nat) (text : Text) (fault : Fault), 1 ≤ k ∧ k ≤ source.read.lines.length ∧
        source.read.lines[k - 1]? = some text ∧ error = .located ⟨k, text⟩ fault) ∧
    ∀ order, order.Perm a.predefined.toList →
      SymbolTable.empty.defineAll order = .ok a.predefined ∧
      a.assembleIn order source = a.assemble source := by
  intro a
  have hnames : a.predefined.Canonical :=
    Assembler.canonical_predefineAll SymbolTable.canonical_empty symbols
  refine ⟨fun error herror => ?_, fun order hperm => ?_⟩
  · obtain ⟨⟨number, text⟩, hline, fault, rfl⟩ :=
      Assembler.located_of_error hread hnames herror
    obtain ⟨k, hpos, hle, htext, rfl⟩ := SourceLine.exists_of_mem hline
    exact ⟨k, text, fault, hpos, hle, htext, rfl⟩
  · have hseed := hnames.defineAll hperm
    refine ⟨hseed, ?_⟩
    rw [← a.assembleIn_toList]
    exact a.assembleIn_congr source (hseed.trans (hnames.defineAll (.refl _)).symm)

/-- Names that differ only in case, one of them with a letter that has three cases, and one with a
stray byte. -/
def casedNames : List (Text × UInt16) :=
  [("ǆ", 1), ("ǅ", 2), ("loop", 3), ([.stray 0xFF, .char 'a'], 4)]

/-- A source that defines a predefined name in its second line. -/
def redefiningSource : Input := ⟨"BR Loop ; once\nLOOP: RET\n", false⟩

theorem faults_are_located_redefining :
    let a := Assembler.predefineAll ⟨false, false, .empty⟩ casedNames
    redefiningSource.read.fault = none ∧
    (∃ error, (a.assemble redefiningSource).result = .error error ∧
      error.fault = .duplicateLabel "LOOP" ∧
      ∃ (k : Nat) (text : Text) (fault : Fault), 1 ≤ k ∧
        k ≤ redefiningSource.read.lines.length ∧
        redefiningSource.read.lines[k - 1]? = some text ∧
          error = .located ⟨k, text⟩ fault) ∧
    a.assembleIn a.predefined.toList.reverse redefiningSource = a.assemble redefiningSource := by
  intro a
  have hread : redefiningSource.read.fault = none := by decide +kernel
  have herror : ∃ error, (a.assemble redefiningSource).result = .error error ∧
      error.fault = .duplicateLabel "LOOP" := exists_error_of_run (by decide +kernel)
  obtain ⟨error, hresult, hfault⟩ := herror
  obtain ⟨hlocated, horder⟩ := faults_are_located false false casedNames redefiningSource hread
  exact ⟨hread, ⟨error, hresult, hfault, hlocated error hresult⟩,
    (horder _ (List.reverse_perm _)).2⟩

end LittleComputer
