import Mathlib.Data.List.Forall2
import LittleComputer.Proofs.ImageSource
import LittleComputer.Proofs.Tiling

/-!
# Moving a program

A program that computes nothing can be assembled at another origin. Its labels move with the origin,
and so do its words; the distance from a branch to its target stays, so the only words that change
are those that hold the address of a label. The two runs of each pass are followed side by side:
`Moved` relates what they have reached, and each statement leaves it as it was.
-/

namespace LittleComputer

open Outcome

/-- The statement neither sets an origin nor has an expression to compute. -/
structure Statement.IsPortable (s : Statement) : Prop where
  operation : s.operation ≠ .keyword .orig
  operands : ∀ word ∈ s.operands, word.expression? = none

/-- Whether the word of the statement is the address of a symbol. -/
def Statement.fillsAddress (symbols : SymbolTable) (s : Statement) : Bool :=
  s.operation == .keyword .fill && s.operands.any fun word => (symbols.lookup? word).isSome

/-- What a word of the statement becomes when the origin moves from `a` to `b`. -/
def Statement.movedWord (a b : UInt16) (symbols : SymbolTable) (s : Statement) (word : UInt16) :
    UInt16 :=
  if s.fillsAddress symbols then word + (b - a) else word

theorem Statement.movedWord_of_ne {s : Statement} (h : s.operation ≠ .keyword .fill)
    (a b : UInt16)
    (symbols : SymbolTable) : s.movedWord a b symbols = id := by
  funext word
  have hnot : s.fillsAddress symbols = false := by
    unfold fillsAddress
    rw [beq_false_of_ne h, Bool.false_and]
  unfold movedWord
  rw [hnot]
  rfl

theorem Statement.operands_of_operand {s : Statement} {word : Text} (h : s.operand = .ok word) :
    s.operands = [word] := by
  unfold operand at h
  split at h
  · rename_i hwords
    cases h
    exact hwords
  · cases h

theorem Statement.IsPortable.literal_of_operand {s : Statement} (hs : s.IsPortable) {word : Text}
    (h : s.operand = .ok word) : word.expression? = none := by
  apply hs.operands
  rw [operands_of_operand h]
  exact List.mem_singleton_self word

/-! ## Symbols -/

/-- Both tables have the same names, and the addresses of the second are as far from `b` as those of
the first are from `a`. -/
def SymbolTable.Moved (a b : UInt16) (t u : SymbolTable) : Prop :=
  ∀ key : String, u.addresses[key]?.map (fun y => (y.toNat : Int)) =
    t.addresses[key]?.map fun x => (x.toNat : Int) + ((b.toNat : Int) - a.toNat)

namespace SymbolTable

variable {a b : UInt16} {t u : SymbolTable}

theorem moved_empty : Moved a b empty empty := by
  intro key
  simp [empty]

theorem Moved.assign (h : Moved a b t u) (name : Text) {x y : UInt16}
    (hxy : (y.toNat : Int) = x.toNat + ((b.toNat : Int) - a.toNat)) :
    Moved a b (t.assign name x) (u.assign name y) := by
  intro key
  rw [addresses_assign, addresses_assign]
  split
  · exact congrArg some hxy
  · exact h key

/-- A name is unknown to both tables or moves by as much as the origin. -/
theorem Moved.lookup? (h : Moved a b t u) (name : Text) :
    t.lookup? name = none ∧ u.lookup? name = none ∨
      ∃ x y, t.lookup? name = some x ∧ u.lookup? name = some y ∧
        (y.toNat : Int) = x.toNat + ((b.toNat : Int) - a.toNat) := by
  have hkey := h name.upper
  unfold SymbolTable.lookup?
  cases ht : t.addresses[name.upper]? with
  | none =>
    rw [ht] at hkey
    exact .inl ⟨rfl, Option.map_eq_none_iff.mp hkey⟩
  | some x =>
    rw [ht] at hkey
    obtain ⟨y, hy, hxy⟩ := Option.map_eq_some_iff.mp hkey
    exact .inr ⟨x, y, rfl, hy, hxy⟩

end SymbolTable

/-- As words, addresses move by the difference of the origins modulo the size of the
address space. -/
theorem word_of_moved {a b x y : UInt16}
    (h : (y.toNat : Int) = x.toNat + ((b.toNat : Int) - a.toNat)) :
    y = x + (b - a) := by
  rw [← UInt16.toNat_inj, UInt16.toNat_add, UInt16.toNat_sub]
  have hx := x.toNat_lt
  have hy := y.toNat_lt
  have ha := a.toNat_lt
  have hb := b.toNat_lt
  omega

/-! ## Operands -/

namespace Scope

variable {a b : UInt16} {scope scope' : Scope} {word : Text}

/-- The same place before and behind a move. -/
structure Moved (a b : UInt16) (scope scope' : Scope) : Prop where
  symbols : scope.symbols.Moved a b scope'.symbols
  address : scope'.address = scope.address + ((b.toNat : Int) - a.toNat)

section Literal

variable [Interpreter]

variable (scope scope') (hword : word.expression? = none)

include hword

theorem number_of_literal : scope'.number word = scope.number word := by
  unfold number
  rw [hword]

theorem immediate_of_literal (f : Field) : scope'.immediate f word = scope.immediate f word := by
  unfold immediate
  rw [number_of_literal scope scope' hword]

theorem immediateOrLabel_of_literal (f : Field) :
    scope'.immediateOrLabel f word = scope.immediateOrLabel f word := by
  unfold immediateOrLabel
  rw [immediate_of_literal scope scope' hword]

end Literal

variable [Interpreter]

/-- The way to a symbol is as long as before. -/
theorem Moved.offset (h : Moved a b scope scope') (bits : Nat) (hword : word.expression? = none) :
    scope'.offset bits word = scope.offset bits word := by
  unfold Scope.offset
  obtain ⟨ht, hu⟩ | ⟨x, y, hx, hy, hxy⟩ := h.symbols.lookup? word
  · rw [ht, hu]
    exact immediateOrLabel_of_literal scope scope' hword _
  · -- the symbol and the statement move by the same amount
    have hgap : (y.toNat : Int) - (scope'.address + 2) = x.toNat - (scope.address + 2) := by
      rw [h.address, hxy]
      omega
    have hdistance : scope'.distance y = scope.distance x := by
      unfold distance
      rw [hgap]
    have htold : scope'.distanceTold y = scope.distanceTold x := by
      unfold distanceTold
      rw [hgap]
    rw [hx, hy]
    simp only [hdistance, htold]

/-- A symbol that is filled in moves, and a number does not. -/
theorem Moved.fill (h : Moved a b scope scope') (hword : word.expression? = none) :
    scope'.word word =
      (fun w => if (scope.symbols.lookup? word).isSome then w + (b - a) else w) <$>
        scope.word word := by
  unfold Scope.word
  obtain ⟨ht, hu⟩ | ⟨x, y, hx, hy, hxy⟩ := h.symbols.lookup? word
  · rw [ht, hu, immediateOrLabel_of_literal scope scope' hword]
    simp
  · rw [hx, hy, word_of_moved hxy]
    rfl

theorem operate_of_literal (scope scope' : Scope) (op : Operator) (target left : Text)
    (hword : word.expression? = none) :
    scope'.operate op target left word = scope.operate op target left word := by
  unfold operate
  split
  · rfl
  · rw [immediate_of_literal scope scope' hword]

theorem Moved.instruction (h : Moved a b scope scope') (m : Mnemonic) {operands : List Text}
    (hoperands : ∀ word ∈ operands, word.expression? = none) :
    scope'.instruction m operands = scope.instruction m operands := by
  unfold Scope.instruction
  split
  · rfl
  · rfl
  · rfl
  · rfl
  · rw [h.offset 11 (hoperands _ (List.mem_singleton_self _))]
  · rfl
  · rw [h.offset 9 (hoperands _ (List.mem_cons_of_mem _ (List.mem_singleton_self _)))]
  · rw [immediate_of_literal scope scope' (hoperands _ (List.mem_singleton_self _))]
  · rfl
  · rfl
  · rw [h.offset 9 (hoperands _ (List.mem_singleton_self _))]
  · have hlast :=
      hoperands _ (List.mem_cons_of_mem _ (List.mem_cons_of_mem _ (List.mem_singleton_self _)))
    rw [immediate_of_literal scope scope' hlast, immediate_of_literal scope scope' hlast]
    simp only [operate_of_literal scope scope' _ _ _ hlast]
  · rfl

/-- What a literal says does not depend on where it stands. -/
theorem blockCount_of_portable (scope scope' : Scope) {s : Statement} (hs : s.IsPortable) :
    scope'.blockCount s = scope.blockCount s := by
  unfold blockCount
  cases hoperand : s.operand with
  | error fault => rfl
  | ok word =>
    have hword := hs.literal_of_operand hoperand
    show BitVec.toNat <$> scope'.immediate _ word = BitVec.toNat <$> scope.immediate _ word
    rw [immediate_of_literal scope scope' hword]

theorem size_of_portable (scope scope' : Scope) {s : Statement} (hs : s.IsPortable) :
    scope'.size s = scope.size s := by
  unfold size
  rw [blockCount_of_portable scope scope' hs]

/-- The words of a statement behind a move. -/
theorem Moved.words (h : Moved a b scope scope') {s : Statement} (hs : s.IsPortable) :
    scope'.words s = List.map (s.movedWord a b scope.symbols) <$> scope.words s := by
  by_cases hfill : s.operation = .keyword .fill
  · unfold Scope.words
    rw [hfill]
    cases hoperand : s.operand with
    | error fault => rfl
    | ok word =>
      have hmoved : s.movedWord a b scope.symbols =
          fun w => if (scope.symbols.lookup? word).isSome then w + (b - a) else w := by
        funext w
        unfold Statement.movedWord Statement.fillsAddress
        rw [hfill, Statement.operands_of_operand hoperand]
        simp
      have hword := h.fill (hs.literal_of_operand hoperand)
      show (scope'.word word >>= fun w => .ok [w]) =
        List.map (s.movedWord a b scope.symbols) <$> (scope.word word >>= fun w => .ok [w])
      rw [hword, hmoved]
      cases scope.word word with
      | error fault => rfl
      | ok w => rfl
  · have hsame : scope'.words s = scope.words s := by
      unfold Scope.words
      rw [blockCount_of_portable scope scope' hs]
      simp only [encode_eq, h.instruction _ hs.operands]
      split
      case h_5 hop => exact absurd hop hfill
      all_goals rfl
    rw [hsame, Statement.movedWord_of_ne hfill, List.map_id_fun, id_map]

end Scope

/-! ## The first pass -/

namespace Survey

variable [Interpreter]

variable {a b : UInt16} {v v' w w' final final' : Survey} {s : Statement}
  {statements : List Statement}
  {visits visits' : List (Survey × Statement)}

/-- What two surveys of the same statements have reached, one of them behind a move. -/
structure Moved (a b : UInt16) (v w : Survey) : Prop where
  symbols : v.symbols.Moved a b w.symbols
  address : (w.locator.address : Int) = v.locator.address + ((b.toNat : Int) - a.toNat)

/-- All that a step does with a portable statement: where it arrives and how many bytes it passes
over is the same for every scope. -/
structure Passes (s : Statement) (v v' : Survey) (arrived : Locator) (size : Nat) : Prop where
  arrive : ∀ scope : Scope, scope.arrive v.locator s = .ok arrived
  sized : ∀ scope : Scope, scope.size s = .ok size
  advance : arrived.advance size = .ok v'.locator
  here : arrived.address = v.locator.address
  behind : v'.locator.address = v.locator.address + size
  origin : v'.locator.origin = v.locator.origin
  limit : size ≠ 0 → v.locator.address + size ≤ addressLimit
  label : s.label ≠ none → v.locator.address < addressLimit
  defines : Defines s v.locator.address v.symbols v'.symbols

theorem passes_of_step (hs : s.IsPortable) (h : v.step s = (v', none)) :
    ∃ arrived size, Passes s v v' arrived size := by
  obtain ⟨m, hmark, hpass⟩ := step_eq_none.mp h
  obtain ⟨harrive, hdefines⟩ := arrive_of_mark hmark
  obtain ⟨size, hsize, hadvance, hsymbols⟩ := pass_eq_ok.mp hpass
  have hstay : ∀ scope : Scope, scope.relocate v.locator s = .ok v.locator := fun scope =>
    Scope.relocate_eq_ok.mpr (.inl ⟨hs.operation, rfl⟩)
  obtain ⟨mid, hmid, hlabel⟩ := Scope.arrive_eq_ok.mp harrive
  cases (hstay (v.scope s)).symm.trans hmid
  have hhere : m.locator.address = v.locator.address := Scope.arrive_address hs.operation harrive
  have horigin : m.locator.origin = v.locator.origin := by
    obtain ⟨-, hloc⟩ | ⟨-, -, hloc⟩ := hlabel
    · rw [hloc]
    · rw [hloc]
  have hbehind : v'.locator.address = m.locator.address + size ∧
      v'.locator.origin = m.locator.origin ∧
        (size ≠ 0 → m.locator.address + size ≤ addressLimit) := by
    obtain ⟨hzero, hloc⟩ | ⟨-, hlimit, hloc⟩ := Locator.advance_eq_ok.mp hadvance
    · rw [hloc, hzero]
      exact ⟨rfl, rfl, fun hne => absurd rfl hne⟩
    · rw [hloc]
      exact ⟨rfl, rfl, fun _ => hlimit⟩
  rw [hhere, horigin] at hbehind
  rw [hhere, ← hsymbols] at hdefines
  refine ⟨m.locator, size, fun scope => ?_, fun scope => ?_, hadvance, hhere, hbehind.1,
    hbehind.2.1, hbehind.2.2, fun hne => ?_, hdefines⟩
  · exact Scope.arrive_eq_ok.mpr ⟨v.locator, hstay scope, hlabel⟩
  · rw [← hsize]
    exact Scope.size_of_portable _ _ hs
  · rw [← hhere]
    exact Scope.arrive_label hne harrive

/-- One statement of both surveys. -/
theorem Moved.step (hm : Moved a b v w) (hs : s.IsPortable) (hv : v.step s = (v', none))
    (hw : w.step s = (w', none)) : Moved a b v' w' := by
  obtain ⟨arrived, size, hpass⟩ := passes_of_step hs hv
  obtain ⟨arrived', size', hpass'⟩ := passes_of_step hs hw
  refine ⟨?_, ?_⟩
  · have hdefines := hpass.defines
    have hdefines' := hpass'.defines
    unfold Defines at hdefines hdefines'
    cases hname : s.label with
    | none =>
      rw [hname] at hdefines hdefines'
      rw [hdefines, hdefines']
      exact hm.symbols
    | some name =>
      -- both labels lie below the limit, so neither address wraps around
      have hne : s.label ≠ none := by rw [hname]; nofun
      rw [hname] at hdefines hdefines'
      rw [(SymbolTable.define_eq_ok.mp hdefines).2, (SymbolTable.define_eq_ok.mp hdefines').2]
      refine hm.symbols.assign name ?_
      rw [UInt16.toNat_ofNat_of_lt' (hpass.label hne), UInt16.toNat_ofNat_of_lt' (hpass'.label hne)]
      exact hm.address
  · have hsize : size' = size :=
      Except.ok.inj ((hpass'.sized (v.scope s)).symm.trans (hpass.sized (v.scope s)))
    have hbefore := hm.address
    rw [hpass.behind, hpass'.behind, hsize]
    omega

/-- Both surveys as a whole. -/
theorem Moved.runs (hm : Moved a b v w) (hs : ∀ s ∈ statements, s.IsPortable)
    (hv : Walk.Runs Survey.step v statements visits final)
    (hw : Walk.Runs Survey.step w statements visits' final') : Moved a b final final' := by
  induction hv generalizing w visits' with
  | nil v =>
    cases hw
    exact hm
  | stop rest hstep hend =>
    have hs := hs _ List.mem_cons_self
    cases hw with
    | stop _ hstep' _ => exact hm.step hs hstep hstep'
    | next hstep' hend' _ => rw [hend] at hend'; cases hend'
  | next hstep hend hrest ih =>
    cases hw with
    | stop _ hstep' hend' => rw [hend] at hend'; cases hend'
    | next hstep' _ hrest' =>
      refine ih (hm.step (hs _ List.mem_cons_self) hstep hstep') (fun s hmem => ?_) hrest'
      exact hs s (List.mem_cons_of_mem _ hmem)

end Survey

/-! ## The second pass -/

/-- A cell of the statement and the cell that it becomes behind a move. -/
structure Statement.MovesCell (a b : UInt16) (symbols : SymbolTable) (s : Statement)
    (cell cell' : Cell) :
    Prop where
  line : cell.line = s.line ∧ cell'.line = s.line
  address : (cell'.address.toNat : Int) = cell.address.toNat + ((b.toNat : Int) - a.toNat)
  word : cell'.word = s.movedWord a b symbols cell.word

/-- The cells of statements before and behind a move, statement by statement: each has as many as
its size says, and they move one by one. -/
inductive MovedCells [Interpreter] (a b : UInt16) (symbols : SymbolTable) :
    List Statement → List Cell → List Cell → Prop
  | nil : MovedCells a b symbols [] [] []
  | cons {s : Statement} {rest : List Statement} {cells cells' more more' : List Cell}
      (size : ∀ scope : Scope, scope.size s = .ok (wordSize * cells.length))
      (moves : List.Forall₂ (s.MovesCell a b symbols) cells cells')
      (tail : MovedCells a b symbols rest more more') :
      MovedCells a b symbols (s :: rest) (cells ++ more) (cells' ++ more')

theorem MovedCells.length_eq [Interpreter] {a b : UInt16} {symbols : SymbolTable}
    {statements : List Statement}
    {cells cells' : List Cell} (h : MovedCells a b symbols statements cells cells') :
    cells'.length = cells.length := by
  induction h with
  | nil => rfl
  | cons size moves tail ih => rw [List.length_append, List.length_append, ih, moves.length_eq]

/-- Words placed at both ends of a move. -/
theorem Statement.movesCell_place {a b : UInt16} (symbols : SymbolTable) (s : Statement)
    {address address' : Nat} (haddress : (address' : Int) = address + ((b.toNat : Int) - a.toNat))
    {words : List UInt16}
    (hlimit : wordSize * words.length ≠ 0 → address + wordSize * words.length ≤ addressLimit)
    (hlimit' : wordSize * words.length ≠ 0 →
      address' + wordSize * words.length ≤ addressLimit) :
    List.Forall₂ (s.MovesCell a b symbols) (Cell.place address s.line words)
      (Cell.place address' s.line (words.map (s.movedWord a b symbols))) := by
  unfold Cell.place
  rw [List.zipIdx_map, List.map_map, List.forall₂_map_left_iff, List.forall₂_map_right_iff,
    List.forall₂_same]
  rintro ⟨word, index⟩ hmem
  have hindex : index < words.length := by
    have hword := List.mk_mem_zipIdx_iff_getElem?.mp hmem
    exact (List.getElem?_eq_some_iff.mp hword).1
  simp only [wordSize, addressLimit] at hlimit hlimit'
  refine ⟨⟨rfl, rfl⟩, ?_, rfl⟩
  simp only [Function.comp_apply, Prod.map_apply, id_eq, wordSize]
  rw [UInt16.toNat_ofNat_of_lt' (by simp only [UInt16.size]; omega),
    UInt16.toNat_ofNat_of_lt' (by simp only [UInt16.size]; omega)]
  omega

namespace Encoding

variable [Interpreter]

variable {a b : UInt16} {t u : SymbolTable} {v v' w w' final final' : Survey} {e f : Encoding}
  {s : Statement} {statements : List Statement} {visits visits' : List (Survey × Statement)}

/-- What the second pass does with a statement that the first one passed over from the same place:
only its words can fail. -/
theorem step_of_passes {arrived : Locator} {size : Nat} (h : Survey.Passes s v v' arrived size)
    (hloc : e.locator = v.locator) :
    step t e s = match (Scope.mk t v.locator.address s.line.number).words s with
      | .error fault => (e, some fault)
      | .ok words =>
        (⟨v'.locator, (Cell.place v.locator.address s.line words).reverse ++ e.cells⟩,
          none) := by
  have hmark : e.mark t s = .ok ⟨arrived, e.cells⟩ := by
    refine mark_eq_ok.mpr ⟨?_, rfl⟩
    rw [hloc]
    exact h.arrive _
  have hscope : Encoding.scope ⟨arrived, e.cells⟩ t s =
      ⟨t, v.locator.address, s.line.number⟩ := by
    unfold Encoding.scope
    rw [h.here]
  cases hwords : (Scope.mk t v.locator.address s.line.number).words s with
  | error fault =>
    rw [← hscope] at hwords
    exact step_of_words_error hmark hwords
  | ok words =>
    have hsize : size = wordSize * words.length :=
      Except.ok.inj ((h.sized _).symm.trans (Scope.size_of_words hwords))
    refine step_eq_none.mpr ⟨_, hmark, emit_eq_ok.mpr ⟨words, ?_, ?_, ?_⟩⟩
    · rw [hscope]
      exact hwords
    · rw [← hsize]
      exact h.advance
    · rw [← h.here]

/-- One statement of both encodings: it fails in both in the same way, or its cells move. -/
theorem step_moves (hs : s.IsPortable) (ht : t.Moved a b u) (hm : Survey.Moved a b v w)
    (hv : v.step s = (v', none)) (hw : w.step s = (w', none)) (he : e.locator = v.locator)
    (hf : f.locator = w.locator) :
    (∃ fault, step t e s = (e, some fault) ∧ step u f s = (f, some fault)) ∨
      ∃ cells cells', (∀ scope : Scope, scope.size s = .ok (wordSize * cells.length)) ∧
        List.Forall₂ (s.MovesCell a b t) cells cells' ∧
        step t e s = (⟨v'.locator, cells.reverse ++ e.cells⟩, none) ∧
        step u f s = (⟨w'.locator, cells'.reverse ++ f.cells⟩, none) ∧
        v'.locator.origin = e.locator.origin ∧ w'.locator.origin = f.locator.origin := by
  obtain ⟨arrived, size, hpass⟩ := Survey.passes_of_step hs hv
  obtain ⟨arrived', size', hpass'⟩ := Survey.passes_of_step hs hw
  have hmoved : Scope.Moved a b ⟨t, v.locator.address, s.line.number⟩
      ⟨u, w.locator.address, s.line.number⟩ := ⟨ht, hm.address⟩
  rw [step_of_passes hpass he, step_of_passes hpass' hf, hmoved.words hs]
  cases hwords : (Scope.mk t v.locator.address s.line.number).words s with
  | error fault => exact .inl ⟨fault, rfl, rfl⟩
  | ok words =>
    have hsize : size = wordSize * words.length :=
      Except.ok.inj ((hpass.sized _).symm.trans (Scope.size_of_words hwords))
    have hsize' : size' = size :=
      Except.ok.inj ((hpass'.sized (v.scope s)).symm.trans (hpass.sized _))
    have hlimit := hpass.limit
    have hlimit' := hpass'.limit
    rw [hsize'] at hlimit'
    rw [hsize] at hlimit hlimit'
    refine .inr ⟨_, _, fun scope => ?_, s.movesCell_place t hm.address hlimit hlimit', rfl, rfl,
      ?_, ?_⟩
    · rw [Cell.length_place, ← hsize]
      exact hpass.sized scope
    · rw [he]
      exact hpass.origin
    · rw [hf]
      exact hpass'.origin

/-- How two walks over the same statements, from `e` and from `f`, go side by side. -/
structure MovedWalks (a b : UInt16) (symbols : SymbolTable) (statements : List Statement)
    (e f : Encoding)
    (x y : Walk Encoding) : Prop where
  error : y.error = x.error
  origin : x.error = none →
    x.final.locator.origin = e.locator.origin ∧ y.final.locator.origin = f.locator.origin
  cells : x.error = none →
    ∃ cells cells', MovedCells a b symbols (Statement.upToEnd statements) cells cells' ∧
    x.final.cells.reverse = e.cells.reverse ++ cells ∧
      y.final.cells.reverse = f.cells.reverse ++ cells'

theorem movedWalks_of_fault {fault : Fault} (rest : List Statement)
    (he : step t e s = (e, some fault))
    (hf : step u f s = (f, some fault)) :
    MovedWalks a b t (s :: rest) e f (Walk.through (step t) e (s :: rest))
      (Walk.through (step u) f (s :: rest)) := by
  rw [Walk.through_fault rest he, Walk.through_fault rest hf]
  exact ⟨rfl, nofun, nofun⟩

/-- Both encodings as a whole, where both surveys met no fault. -/
theorem movedWalks_of_runs (hs : ∀ s ∈ statements, s.IsPortable) (ht : t.Moved a b u)
    (hv : Walk.Runs Survey.step v statements visits final)
    (hw : Walk.Runs Survey.step w statements visits' final') (hm : Survey.Moved a b v w)
    (he : e.locator = v.locator) (hf : f.locator = w.locator) :
    MovedWalks a b t statements e f (Walk.through (step t) e statements)
      (Walk.through (step u) f statements) := by
  -- both runs are over the same statements, so that they stop at the same `.END`
  induction hv generalizing w visits' e f with
  | nil v =>
    refine ⟨rfl, fun _ => ⟨rfl, rfl⟩, fun _ => ⟨[], [], .nil, ?_, ?_⟩⟩
    · exact (List.append_nil _).symm
    · exact (List.append_nil _).symm
  | @stop v v' s rest hstep hend =>
    cases hw with
    | next hstep' hend' _ => rw [hend] at hend'; cases hend'
    | stop _ hstep' _ =>
      obtain ⟨fault, hfault, hfault'⟩ | ⟨cells, cells', hsize, hmoves, hstep, hstep', horigin,
          horigin'⟩ :=
        step_moves (hs s List.mem_cons_self) ht hm hstep hstep' he hf
      · exact movedWalks_of_fault rest hfault hfault'
      · rw [Walk.through_end rest hstep hend, Walk.through_end rest hstep' hend]
        refine ⟨rfl, fun _ => ⟨horigin, horigin'⟩,
          fun _ => ⟨cells ++ [], cells' ++ [], ?_, ?_, ?_⟩⟩
        · unfold Statement.upToEnd
          rw [if_pos hend]
          exact .cons hsize hmoves .nil
        · simp
        · simp
  | @next v v' final s rest visits hstep hend hrest ih =>
    cases hw with
    | stop _ hstep' hend' => rw [hend] at hend'; cases hend'
    | next hstep' _ hrest' =>
      have hs' := hs s List.mem_cons_self
      have hm' := hm.step hs' hstep hstep'
      obtain ⟨fault, hfault, hfault'⟩ | ⟨cells, cells', hsize, hmoves, hstep, hstep', horigin,
          horigin'⟩ :=
        step_moves hs' ht hm hstep hstep' he hf
      · exact movedWalks_of_fault rest hfault hfault'
      · rw [Walk.through_next rest hstep hend, Walk.through_next rest hstep' hend]
        have hwalks := ih (fun s hmem => hs s (List.mem_cons_of_mem _ hmem)) hrest' hm'
          (e := ⟨v'.locator, cells.reverse ++ e.cells⟩) rfl
          (f := ⟨_, cells'.reverse ++ f.cells⟩) rfl
        refine ⟨hwalks.error, fun herror => ?_, fun herror => ?_⟩
        · obtain ⟨hx, hy⟩ := hwalks.origin herror
          exact ⟨hx.trans horigin, hy.trans horigin'⟩
        · obtain ⟨more, more', hmore, hx, hy⟩ := hwalks.cells herror
          refine ⟨cells ++ more, cells' ++ more', ?_, ?_, ?_⟩
          · unfold Statement.upToEnd
            rw [if_neg (ne_true_of_eq_false hend)]
            exact .cons hsize hmoves hmore
          · rw [hx]
            simp
          · rw [hy]
            simp

end Encoding

/-! ## Programs -/

namespace Assembler

variable [Interpreter]

variable {asm : Assembler} {origin : HexNumeral} {statements : List Statement}
  {symbols : SymbolTable}

/-- Behind an `.ORIG` the survey starts at its address. -/
theorem runs_of_survey_orig (hseed : asm.predefined = .empty) (heven : origin.word.toNat % 2 = 0)
    {number : Int}
    (h : (asm.survey (origin.orig number :: statements)).result = (symbols, none)) :
    ∃ visits final,
      Walk.Runs Survey.step ⟨⟨origin.word, origin.word.toNat, false⟩, .empty⟩ statements
        visits final ∧ final.symbols = symbols := by
  rw [survey_unseeded hseed] at h
  unfold Survey.walk at h
  rw [Walk.through_next statements (Survey.step_orig heven number .empty) rfl] at h
  obtain ⟨hsymbols, herror⟩ := Prod.mk.inj h
  exact ⟨_, _, Walk.runs_through herror, hsymbols⟩

theorem encode_orig (heven : origin.word.toNat % 2 = 0) (number : Int) :
    (asm.encode (origin.orig number :: statements) symbols).result =
      Encoding.program symbols (Walk.through (Encoding.step symbols)
        ⟨⟨origin.word, origin.word.toNat, false⟩, []⟩ statements) := by
  unfold encode Encoding.walk
  rw [Walk.through_next statements (Encoding.step_orig heven number symbols) rfl]
  rfl

end Assembler

/-- What comes of statements at origin `a` and at origin `b`: the same error, or programs of which
one is the other, moved. -/
inductive MovedOutcomes [Interpreter] (a b : UInt16) (symbols : SymbolTable)
    (statements : List Statement) :
    Except Error Program → Except Error Program → Prop
  | error (error : Error) : MovedOutcomes a b symbols statements (.error error) (.error error)
  | ok {prog prog' : Program} (origin : prog.origin = a) (origin' : prog'.origin = b)
      (size : prog'.size = prog.size)
      (cells : MovedCells a b symbols (Statement.upToEnd statements) prog.cells prog'.cells) :
      MovedOutcomes a b symbols statements (.ok prog) (.ok prog')

/-- A program moves with its origin. Let statements that set no origin and have no expressions be
surveyed without a fault behind either of two origins, with nothing predefined. Then every label of
the second survey is the one of the first, moved; and encoding fails behind both origins with the
same error, or it gives programs of the same size whose cells move, with the same words, except that
the address of a label moves where it is filled in. -/
theorem program_moves_with_origin [Interpreter] (asm : Assembler) (hseed : asm.predefined = .empty)
    (statements : List Statement) (hportable : ∀ s ∈ statements, s.IsPortable)
    (origin origin' : HexNumeral)
    (number number' : Int) (heven : origin.word.toNat % 2 = 0) (heven' : origin'.word.toNat % 2 = 0)
    (symbols symbols' : SymbolTable)
    (hsurvey : (asm.survey (origin.orig number :: statements)).result = (symbols, none))
    (hsurvey' : (asm.survey (origin'.orig number' :: statements)).result = (symbols', none)) :
    symbols.Moved origin.word origin'.word symbols' ∧
    MovedOutcomes origin.word origin'.word symbols statements
      (asm.encode (origin.orig number :: statements) symbols).result
      (asm.encode (origin'.orig number' :: statements) symbols').result := by
  obtain ⟨visits, final, hruns, rfl⟩ := Assembler.runs_of_survey_orig hseed heven hsurvey
  obtain ⟨visits', final', hruns', rfl⟩ := Assembler.runs_of_survey_orig hseed heven' hsurvey'
  have hstart : Survey.Moved origin.word origin'.word
      ⟨⟨origin.word, origin.word.toNat, false⟩, .empty⟩
      ⟨⟨origin'.word, origin'.word.toNat, false⟩, .empty⟩ :=
    ⟨SymbolTable.moved_empty, by simp only; omega⟩
  have htables := (hstart.runs hportable hruns hruns').symbols
  refine ⟨htables, ?_⟩
  have hwalks := Encoding.movedWalks_of_runs hportable htables hruns hruns' hstart
    (e := ⟨⟨origin.word, origin.word.toNat, false⟩, []⟩) rfl
    (f := ⟨⟨origin'.word, origin'.word.toNat, false⟩, []⟩) rfl
  rw [Assembler.encode_orig heven, Assembler.encode_orig heven']
  unfold Encoding.program
  rw [hwalks.error]
  split
  · exact .error _
  · rename_i hnone
    obtain ⟨horigin, horigin'⟩ := hwalks.origin hnone
    obtain ⟨cells, cells', hcells, hfinal, hfinal'⟩ := hwalks.cells hnone
    rw [hfinal, hfinal']
    exact .ok horigin horigin' hcells.length_eq hcells

/-- A loop with a string behind it, and a word that holds the address of the loop. -/
def loopingStatements : List Statement :=
  (Listing.ofLines false
    (SourceLine.ofTexts ["LEA R1, TEXT", "LOOP: ADD R0, R0, #-1", "BRp loop", "HALT",
    ".FILL LOOP", ".FILL x10", "TEXT: .STRINGZ \"ab\"", ".BLKW 2", ".END"])).statements

def highOrigin : HexNumeral := ⟨0xF000, ['f', '0', '0', '0'], by decide⟩

def lowOrigin : HexNumeral := ⟨0x0200, ['0', '2', '0', '0'], by decide⟩

def loopingSymbols (origin : HexNumeral) : SymbolTable :=
  (Assembler.survey {} (origin.orig 1 :: loopingStatements)).result.1

/-- The loop moves down, to where its address wraps around. -/
theorem program_moves_with_origin_down :
    (∀ s ∈ loopingStatements, s.IsPortable) ∧
    (Assembler.survey {} (highOrigin.orig 1 :: loopingStatements)).result =
      (loopingSymbols highOrigin, none) ∧
    (Assembler.survey {} (lowOrigin.orig 1 :: loopingStatements)).result =
      (loopingSymbols lowOrigin, none) ∧
    (loopingSymbols highOrigin).Moved highOrigin.word lowOrigin.word (loopingSymbols lowOrigin) ∧
    ∃ prog prog',
      (Assembler.encode {} (highOrigin.orig 1 :: loopingStatements)
        (loopingSymbols highOrigin)).result = .ok prog ∧
      (Assembler.encode {} (lowOrigin.orig 1 :: loopingStatements)
        (loopingSymbols lowOrigin)).result = .ok prog' ∧
      prog.words[4]? = some 0xF002 ∧ prog'.words[4]? = some 0x0202 ∧
      MovedCells highOrigin.word lowOrigin.word (loopingSymbols highOrigin)
        (Statement.upToEnd loopingStatements) prog.cells prog'.cells := by
  have hcheck : ∀ s ∈ loopingStatements, s.operation ≠ .keyword .orig ∧
      ∀ word ∈ s.operands, word.expression? = none := by decide +kernel
  have hportable : ∀ s ∈ loopingStatements, s.IsPortable := fun s hs =>
    ⟨(hcheck s hs).1, (hcheck s hs).2⟩
  have hhigh : (Assembler.survey {} (highOrigin.orig 1 :: loopingStatements)).result =
      (loopingSymbols highOrigin, none) := Assembler.survey_eq (by decide +kernel)
  have hlow : (Assembler.survey {} (lowOrigin.orig 1 :: loopingStatements)).result =
      (loopingSymbols lowOrigin, none) := Assembler.survey_eq (by decide +kernel)
  have hprog : ∃ prog, (Assembler.encode {} (highOrigin.orig 1 :: loopingStatements)
      (loopingSymbols highOrigin)).result = .ok prog ∧ prog.words[4]? = some 0xF002 :=
    exists_ok_of_any (by decide +kernel)
  have hprog' : ∃ prog', (Assembler.encode {} (lowOrigin.orig 1 :: loopingStatements)
      (loopingSymbols lowOrigin)).result = .ok prog' ∧ prog'.words[4]? = some 0x0202 :=
    exists_ok_of_any (by decide +kernel)
  obtain ⟨prog, hprog, hword⟩ := hprog
  obtain ⟨prog', hprog', hword'⟩ := hprog'
  obtain ⟨hmoved, houtcomes⟩ :=
    program_moves_with_origin {} rfl loopingStatements hportable highOrigin
    lowOrigin 1 1 (by decide) (by decide) _ _ hhigh hlow
  rw [hprog, hprog'] at houtcomes
  cases houtcomes with
  | ok _ _ _ hcells =>
    exact ⟨hportable, hhigh, hlow, hmoved, prog, prog', hprog, hprog', hword, hword', hcells⟩

end LittleComputer
