import Mathlib.Data.List.Forall2
import LittleComputer.Proofs.InstructionTable
import LittleComputer.Proofs.Listing
import LittleComputer.Proofs.Step

/-!
# Two runs side by side

Some changes to a source leave its program as it is: other letters, other comments, other names for
its labels. Both sources are then followed side by side. `Outcome.Beside` relates two checks of
which both give a value or both fail. It goes through chains of checks, and so through the steps of
both passes, through walks and through assembling as a whole. What is left to show for each change
is what it does to one statement.
-/

namespace LittleComputer

/-! ## Checks -/

namespace Outcome

/-- Both checks give values that `R` relates, or both fail with faults that `F` relates. -/
inductive Beside {ε ε' α α' : Type} (F : ε → ε' → Prop) (R : α → α' → Prop) :
    Except ε α → Except ε' α' → Prop
  | ok {a : α} {a' : α'} (h : R a a') : Beside F R (.ok a) (.ok a')
  | error {e : ε} {e' : ε'} (h : F e e') : Beside F R (.error e) (.error e')

/-- What comes of a step or a walk, without the state that a fault leaves behind. -/
def settled {ε α : Type} : α × Option ε → Except ε α
  | (_, some e) => .error e
  | (a, none) => .ok a

namespace Beside

variable {ε ε' α α' β β' : Type} {F : ε → ε' → Prop} {R : α → α' → Prop}
  {S : β → β' → Prop}
  {x : Except ε α} {y : Except ε' α'}

theorem bind {next : α → Except ε β} {next' : α' → Except ε' β'} (h : Beside F R x y)
    (hnext : ∀ a a', R a a' → Beside F S (next a) (next' a')) :
    Beside F S (x >>= next) (y >>= next') := by
  cases h with
  | ok hvalue => exact hnext _ _ hvalue
  | error hfault => exact .error hfault

theorem map {make : α → β} {make' : α' → β'} (h : Beside F R x y)
    (hmake : ∀ a a', R a a' → S (make a) (make' a')) :
    Beside F S (make <$> x) (make' <$> y) := by
  cases h with
  | ok hvalue => exact .ok (hmake _ _ hvalue)
  | error hfault => exact .error hfault

theorem refl {F : ε → ε → Prop} (hF : ∀ e, F e e) (x : Except ε α) : Beside F Eq x x := by
  cases x with
  | ok a => exact .ok rfl
  | error e => exact .error (hF e)

/-- A chain behind checks with the same value. -/
theorem bind_eq {y : Except ε' α} {next : α → Except ε β} {next' : α → Except ε' β'}
    (h : Beside F Eq x y) (hnext : ∀ a, Beside F S (next a) (next' a)) :
    Beside F S (x >>= next) (y >>= next') := by
  refine h.bind ?_
  rintro a _ rfl
  exact hnext a

theorem map_eq {y : Except ε' α} (h : Beside F Eq x y) (make : α → β) :
    Beside F Eq (make <$> x) (make <$> y) := by
  refine h.map ?_
  rintro a _ rfl
  rfl

/-- Checks that are the same once faults are put through `f` and values through `g`. -/
theorem of_images {f : ε → ε'} {g : α → β} {x y : Except ε α}
    (h : (g <$> x).mapError f = (g <$> y).mapError f) :
    Beside (fun e e' => f e = f e') (fun a a' => g a = g a') x y := by
  cases x with
  | ok a =>
    cases y with
    | ok a' => exact .ok (Except.ok.inj h)
    | error e' => cases h
  | error e =>
    cases y with
    | ok a' => cases h
    | error e' => exact .error (Except.error.inj h)

/-- What is known of both values may be used on the way from one relation to another. -/
theorem imp_values {Q : α → α' → Prop} (h : Beside F R x y)
    (hvalues : ∀ a a', x = .ok a → y = .ok a' → R a a' → Q a a') : Beside F Q x y := by
  cases h with
  | ok hvalue => exact .ok (hvalues _ _ rfl rfl hvalue)
  | error hfault => exact .error hfault

theorem exists_ok_iff (h : Beside F R x y) : (∃ a, x = .ok a) ↔ ∃ a', y = .ok a' := by
  cases h with
  | ok hvalue => exact ⟨fun _ => ⟨_, rfl⟩, fun _ => ⟨_, rfl⟩⟩
  | error hfault => exact ⟨nofun, nofun⟩

theorem of_ok {a : α} {a' : α'} (h : Beside F R (.ok a) (.ok a')) : R a a' := by
  cases h with
  | ok hvalue => exact hvalue

theorem of_settled {x : α × Option ε} {y : α' × Option ε'}
    (h : Beside F R (settled x) (settled y)) :
    (x.2 = none ∧ y.2 = none ∧ R x.1 y.1) ∨ ∃ e e', x.2 = some e ∧ y.2 = some e' ∧
      F e e' := by
  obtain ⟨a, _ | e⟩ := x
  · obtain ⟨a', _ | e'⟩ := y
    · exact .inl ⟨rfl, rfl, h.of_ok⟩
    · cases h
  · obtain ⟨a', _ | e'⟩ := y
    · cases h
    · cases h with
      | error hfault => exact .inr ⟨e, e', rfl, rfl, hfault⟩

end Beside

end Outcome

open Outcome

/-- Errors with faults that `F` relates. If one is located then so is the other, in a line of the
same number. -/
structure Error.Beside (F : Fault → Fault → Prop) (e e' : Error) : Prop where
  number : e'.line?.map (·.number) = e.line?.map (·.number)
  fault : F e.fault e'.fault

theorem Error.beside_located {F : Fault → Fault → Prop} {line line' : SourceLine}
    {fault fault' : Fault}
    (hnumber : line'.number = line.number) (hfault : F fault fault') :
    Error.Beside F (.located line fault) (.located line' fault') :=
  ⟨congrArg some hnumber, hfault⟩

/-! ## Operands -/

/-- Whether operands of the keyword can be symbols, which are then looked up before numbers are
read. -/
def Mnemonic.namesPlaces (m : Mnemonic) : Bool :=
  m.flags?.isSome || m == .jsr || m == .lea || m == .fill

/-- Words that `W` relates are read alike in two scopes, by every reader that the keyword hands them
to. -/
structure Scope.ReadAlike [Interpreter] (F : Fault → Fault → Prop) (W : Text → Text → Prop)
    (m : Mnemonic)
    (scope scope' : Scope) : Prop where
  register : ∀ w w', W w w' → Beside F Eq (Register.parse w) (Register.parse w')
  start : m.namesPlaces = false → ∀ w w', W w w' →
    (w = [] ↔ w' = []) ∧ w'.startsRegister = w.startsRegister
  immediate : m.namesPlaces = false → ∀ w w', W w w' → ∀ f : Field,
    Beside F Eq (scope.immediate f w) (scope'.immediate f w')
  string : m = .stringz → ∀ w w', W w w' →
    Beside F Eq (StringLiteral.words w) (StringLiteral.words w')
  offset : m.namesPlaces = true → ∀ w w', W w w' → ∀ bits : Nat,
    Beside F Eq (scope.offset bits w) (scope'.offset bits w')
  word : m = .fill → ∀ w w', W w w' → Beside F Eq (scope.word w) (scope'.word w')

section Readers

variable [Interpreter]

variable {F : Fault → Fault → Prop} (hF : ∀ fault, F fault fault) {W : Text → Text → Prop}
  {m : Mnemonic}
  {scope scope' : Scope} {s s' : Statement}

include hF

theorem Scope.operate_beside (h : ReadAlike F W m scope scope') (hm : m.namesPlaces = false)
    (op : Operator)
    {a b c a' b' c' : Text} (ha : W a a') (hb : W b b') (hc : W c c') :
    Beside F Eq (scope.operate op a b c) (scope'.operate op a' b' c') := by
  unfold operate
  refine (h.register a a' ha).bind_eq fun dr => (h.register b b' hb).bind_eq fun sr => ?_
  have hregister := h.register c c' hc
  have himmediate := h.immediate hm c c' hc (Field.signed 5)
  obtain ⟨hempty, hstart⟩ := h.start hm c c' hc
  cases c with
  | nil =>
    rw [hempty.mp rfl]
    exact .error (hF _)
  | cons g rest =>
    cases c' with
    | nil => cases hempty.mpr rfl
    | cons g' rest' =>
      simp only [Text.startsRegister] at hstart
      simp only [hstart]
      split
      · exact hregister.bind_eq fun _ => .ok rfl
      · exact himmediate.bind_eq fun _ => .ok rfl

/-- An instruction reads its operands one by one. -/
theorem Scope.instruction_beside (h : ReadAlike F W m scope scope') {operands operands' : List Text}
    (hoperands : List.Forall₂ W operands operands') :
    Beside F Eq (scope.instruction m operands) (scope'.instruction m operands') := by
  rcases hoperands with _ | ⟨ha, _ | ⟨hb, _ | ⟨hc, _ | ⟨hd, hrest⟩⟩⟩⟩
  · cases m
    case nop | ret | halt | rti => exact .ok rfl
    all_goals exact .error (hF _)
  · cases m
    case jmp | jsrr => exact (h.register _ _ ha).bind_eq fun _ => .ok rfl
    case jsr => exact (h.offset rfl _ _ ha 11).bind_eq fun _ => .ok rfl
    case trap => exact (h.immediate rfl _ _ ha _).bind_eq fun _ => .ok rfl
    case br | brn | brz | brp | brnz | brnp | brzp | brnzp =>
      exact (h.offset rfl _ _ ha 9).bind_eq fun _ => .ok rfl
    all_goals exact .error (hF _)
  · cases m
    case not =>
      exact (h.register _ _ ha).bind_eq fun _ => (h.register _ _ hb).bind_eq fun _ => .ok rfl
    case lea =>
      exact (h.register _ _ ha).bind_eq fun _ => (h.offset rfl _ _ hb 9).bind_eq fun _ => .ok rfl
    all_goals exact .error (hF _)
  · cases m
    case add | and | xor => exact Scope.operate_beside hF h rfl _ ha hb hc
    case ldb | ldw | stb | stw | lshf | rshfl | rshfa =>
      exact (h.register _ _ ha).bind_eq fun _ => (h.register _ _ hb).bind_eq fun _ =>
        (h.immediate rfl _ _ hc _).bind_eq fun _ => .ok rfl
    all_goals exact .error (hF _)
  · -- no keyword has that many operands
    have hcount : ∀ (scope : Scope) (a b c d : Text) (rest : List Text),
        scope.instruction m (a :: b :: c :: d :: rest) =
          .error (.operandCount (.keyword m) m.arity (rest.length + 4 : Nat)) := by
      intro scope a b c d rest
      cases m <;> rfl
    rw [hcount, hcount, hrest.length_eq]
    exact .error (hF _)

omit [Interpreter] in
theorem Statement.operand_beside (hop : s'.operation = s.operation)
    (hoperands : List.Forall₂ W s.operands s'.operands) : Beside F W s.operand s'.operand := by
  unfold Statement.operand
  rw [hop]
  generalize s.operands = operands, s'.operands = operands' at hoperands ⊢
  rcases hoperands with _ | ⟨ha, _ | ⟨hb, hrest⟩⟩
  · exact .error (hF _)
  · exact .ok ha
  · simp only [List.length_cons, hrest.length_eq]
    exact .error (hF _)

theorem Scope.origin_beside (h : ReadAlike F W .orig scope scope')
    (hop : s'.operation = s.operation)
    (hoperands : List.Forall₂ W s.operands s'.operands) :
    Beside F Eq (scope.origin s) (scope'.origin s') :=
  (Statement.operand_beside hF hop hoperands).bind fun w w' hw =>
    (h.immediate rfl w w' hw (Field.unsigned 16)).map_eq UInt16.ofBitVec

theorem Scope.blockCount_beside (h : ReadAlike F W .blkw scope scope')
    (hop : s'.operation = s.operation)
    (hoperands : List.Forall₂ W s.operands s'.operands) :
    Beside F Eq (scope.blockCount s) (scope'.blockCount s') :=
  (Statement.operand_beside hF hop hoperands).bind fun w w' hw =>
    (h.immediate rfl w w' hw _).map_eq _

theorem Statement.stringWords_beside (h : Scope.ReadAlike F W .stringz scope scope')
    (hop : s'.operation = s.operation) (hoperands : List.Forall₂ W s.operands s'.operands) :
    Beside F Eq s.stringWords s'.stringWords := by
  have hoperand := Statement.operand_beside hF hop hoperands
  unfold Statement.stringWords
  generalize s.operands = operands, s'.operands = operands' at hoperands ⊢
  rcases hoperands with _ | ⟨ha, hrest⟩
  · exact .error (hF _)
  · exact hoperand.bind fun w w' hw => h.string rfl w w' hw

variable (hop : s'.operation = s.operation) (hoperands : List.Forall₂ W s.operands s'.operands)
  (h : ∀ m, s.operation = .keyword m → Scope.ReadAlike F W m scope scope')

include hop hoperands h

theorem Scope.size_beside : Beside F Eq (scope.size s) (scope'.size s') := by
  unfold Scope.size
  rw [hop]
  split
  · exact .ok rfl
  · exact .ok rfl
  · exact .ok rfl
  · exact (Scope.blockCount_beside hF (h _ ‹_›) hop hoperands).map_eq _
  · exact (Statement.stringWords_beside hF (h _ ‹_›) hop hoperands).map_eq _
  · exact .ok rfl

/-- Statements with the same keyword, the operands of which are read alike, have the same words. -/
theorem Scope.words_beside : Beside F Eq (scope.words s) (scope'.words s') := by
  unfold Scope.words
  rw [hop]
  split
  · exact .ok rfl
  · exact .error (hF _)
  · exact .ok rfl
  · exact .ok rfl
  · exact (Statement.operand_beside hF hop hoperands).bind fun w w' hw =>
      ((h _ ‹_›).word rfl w w' hw).bind_eq fun _ => .ok rfl
  · exact (Scope.blockCount_beside hF (h _ ‹_›) hop hoperands).bind_eq fun _ => .ok rfl
  · exact (Statement.stringWords_beside hF (h _ ‹_›) hop hoperands).bind_eq fun _ => .ok rfl
  · rw [scope.encode_eq, scope'.encode_eq]
    exact ((Scope.instruction_beside hF (h _ ‹_›) hoperands).map_eq _).bind_eq fun _ => .ok rfl

end Readers

/-! ## Walks -/

namespace Walk

variable {σ τ : Type}

def outcome (w : Walk σ) : Except Error σ := settled (w.final, w.error)

/-- Two walks keep what each of their steps keeps. -/
theorem through_beside {step : σ → Statement → σ × Option Fault}
    {step' : τ → Statement → τ × Option Fault}
    {F : Fault → Fault → Prop} {R : σ → τ → Prop} {P : Statement → Statement → Prop}
    (hline : ∀ s s', P s s' → s'.line.number = s.line.number ∧ s'.isEnd = s.isEnd)
    (hstep : ∀ state state' s s', P s s' → R state state' →
      Beside F R (settled (step state s)) (settled (step' state' s')))
    {statements statements' : List Statement}
    (hstatements : List.Forall₂ P statements statements')
    {state : σ} {state' : τ} (hstart : R state state') :
    Beside (Error.Beside F) R (through step state statements).outcome
      (through step' state' statements').outcome := by
  induction hstatements generalizing state state' with
  | nil => exact .ok hstart
  | @cons s s' rest rest' hs _ ih =>
    obtain ⟨hnumber, hend⟩ := hline s s' hs
    rcases (hstep state state' s s' hs hstart).of_settled
      with ⟨hx, hy, hnext⟩ | ⟨fault, fault', hx, hy, hfault⟩
    · have hx : step state s = ((step state s).1, none) := Prod.ext rfl hx
      have hy : step' state' s' = ((step' state' s').1, none) := Prod.ext rfl hy
      cases hfinish : s.isEnd with
      | true =>
        rw [through_end rest hx hfinish, through_end rest' hy (hend.trans hfinish)]
        exact .ok hnext
      | false =>
        rw [through_next rest hx hfinish, through_next rest' hy (hend.trans hfinish)]
        exact ih hnext
    · have hx : step state s = ((step state s).1, some fault) := Prod.ext rfl hx
      have hy : step' state' s' = ((step' state' s').1, some fault') := Prod.ext rfl hy
      rw [through_fault rest hx, through_fault rest' hy]
      exact .error (Error.beside_located hnumber hfault)

end Walk

/-! ## Statements -/

/-- Two statements that the passes place alike, in tables that `T` relates: their keywords and the
numbers of their lines are the same, and so are the origins they set, their sizes and the addresses
of their labels. -/
structure Statement.Twins [Interpreter] (F : Fault → Fault → Prop)
    (T : SymbolTable → SymbolTable → Prop)
    (s s' : Statement) : Prop where
  number : s'.line.number = s.line.number
  operation : s'.operation = s.operation
  label : Option.Rel (fun name name' => ∀ t t' address, T t t' →
    Beside F T (t.define name address) (t'.define name' address)) s.label s'.label
  origin : s.operation = .keyword .orig → ∀ t t' address line, T t t' →
    Beside F Eq ((Scope.mk t address line).origin s) ((Scope.mk t' address line).origin s')
  size : ∀ t t' address line, T t t' →
    Beside F Eq ((Scope.mk t address line).size s) ((Scope.mk t' address line).size s')

theorem Statement.Twins.isEnd [Interpreter] {F : Fault → Fault → Prop}
    {T : SymbolTable → SymbolTable → Prop}
    {s s' : Statement} (h : s.Twins F T s') : s'.isEnd = s.isEnd := by
  unfold Statement.isEnd
  rw [h.operation]

/-- Statements that give the same words in a pair of tables, wherever they stand. -/
def Statement.SameWords [Interpreter] (F : Fault → Fault → Prop) (t t' : SymbolTable)
    (s s' : Statement) : Prop :=
  ∀ address : Int, Beside F Eq ((Scope.mk t address s.line.number).words s)
    ((Scope.mk t' address s.line.number).words s')

/-- A cell without the text of its line. -/
def Cell.content (cell : Cell) : UInt16 × UInt16 × Int :=
  (cell.address, cell.word, cell.line.number)

theorem Cell.content_place {line line' : SourceLine} (h : line'.number = line.number)
    (address : Nat)
    (words : List UInt16) :
    (place address line' words).map content = (place address line words).map content := by
  unfold place
  rw [List.map_map, List.map_map]
  refine List.map_congr_left fun entry _ => ?_
  simp only [Function.comp_apply, content, h]

section Passes

variable [Interpreter]

variable {F : Fault → Fault → Prop} (hF : ∀ fault, F fault fault)
  {T : SymbolTable → SymbolTable → Prop}
  {t t' : SymbolTable} {s s' : Statement}

include hF

theorem Scope.relocate_beside (hs : s.Twins F T s') (ht : T t t') (address line : Int)
    (loc : Locator) :
    Beside F Eq ((Scope.mk t address line).relocate loc s)
      ((Scope.mk t' address line).relocate loc s') := by
  unfold Scope.relocate
  rw [hs.operation]
  split
  · rename_i hop
    exact (hs.origin hop t t' address line ht).bind_eq fun origin => .refl hF _
  · exact .ok rfl

/-! ## The first pass -/

/-- Surveys that have come to the same place, with tables that `T` relates. -/
structure Survey.Beside (T : SymbolTable → SymbolTable → Prop) (v v' : Survey) : Prop where
  locator : v'.locator = v.locator
  symbols : T v.symbols v'.symbols

omit hF in
theorem Survey.settled_step (v : Survey) (s : Statement) :
    settled (v.step s) = v.mark s >>= fun marked => marked.pass s := by
  unfold Survey.step
  cases v.mark s with
  | error fault => rfl
  | ok marked =>
    show settled _ = marked.pass s
    cases hpass : marked.pass s with
    | error fault => simp only [hpass, settled]
    | ok next => simp only [hpass, settled]

theorem Survey.mark_beside {v v' : Survey} (hs : s.Twins F T s') (hv : Survey.Beside T v v') :
    Outcome.Beside F (Survey.Beside T) (v.mark s) (v'.mark s') := by
  have hscope : Outcome.Beside F Eq ((v.scope s).relocate v.locator s)
      ((v'.scope s').relocate v'.locator s') := by
    unfold Survey.scope
    rw [hv.locator, hs.number]
    exact Scope.relocate_beside hF hs hv.symbols _ _ _
  unfold Survey.mark
  refine hscope.bind_eq fun loc => ?_
  have hlabel := hs.label
  generalize s.label = label, s'.label = label' at hlabel ⊢
  cases hlabel with
  | none => exact .ok ⟨rfl, hv.symbols⟩
  | some hdefine =>
    refine (Outcome.Beside.refl hF loc.here).bind_eq fun arrival => ?_
    refine (hdefine _ _ arrival.1 hv.symbols).bind fun symbols symbols' hsymbols => ?_
    exact .ok ⟨rfl, hsymbols⟩

theorem Survey.pass_beside {v v' : Survey} (hs : s.Twins F T s') (hv : Survey.Beside T v v') :
    Outcome.Beside F (Survey.Beside T) (v.pass s) (v'.pass s') := by
  have hsize : Outcome.Beside F Eq ((v.scope s).size s) ((v'.scope s').size s') := by
    unfold Survey.scope
    rw [hv.locator, hs.number]
    exact hs.size _ _ _ _ hv.symbols
  unfold Survey.pass
  refine hsize.bind_eq fun size => ?_
  rw [hv.locator]
  exact (Outcome.Beside.refl hF _).bind_eq fun loc => .ok ⟨rfl, hv.symbols⟩

/-- One step of both surveys. -/
theorem Survey.step_beside {v v' : Survey} (hs : s.Twins F T s') (hv : Survey.Beside T v v') :
    Outcome.Beside F (Survey.Beside T) (settled (v.step s)) (settled (v'.step s')) := by
  rw [Survey.settled_step, Survey.settled_step]
  exact (Survey.mark_beside hF hs hv).bind fun _ _ hmarked => Survey.pass_beside hF hs hmarked

/-! ## The second pass -/

/-- Encodings that have come to the same place with the same cells, but for the texts of lines. -/
structure Encoding.Beside (e e' : Encoding) : Prop where
  locator : e'.locator = e.locator
  cells : e'.cells.map Cell.content = e.cells.map Cell.content

omit hF in
theorem Encoding.settled_step (symbols : SymbolTable) (e : Encoding) (s : Statement) :
    settled (Encoding.step symbols e s) = e.mark symbols s >>= fun marked =>
      marked.emit symbols s := by
  unfold Encoding.step
  split
  · rename_i fault h
    exact h.symm
  · rename_i next h
    exact h.symm

theorem Encoding.mark_beside {e e' : Encoding} (hs : s.Twins F T s') (ht : T t t')
    (he : Encoding.Beside e e') :
    Outcome.Beside F Encoding.Beside (e.mark t s) (e'.mark t' s') := by
  have hscope : Outcome.Beside F Eq ((e.scope t s).relocate e.locator s)
      ((e'.scope t' s').relocate e'.locator s') := by
    unfold Encoding.scope
    rw [he.locator, hs.number]
    exact Scope.relocate_beside hF hs ht _ _ _
  unfold Encoding.mark
  refine hscope.bind_eq fun loc => ?_
  have hlabel := hs.label
  generalize s.label = label, s'.label = label' at hlabel ⊢
  cases hlabel with
  | none => exact .ok ⟨rfl, he.cells⟩
  | some _ => exact (Outcome.Beside.refl hF loc.here).bind_eq fun _ => .ok ⟨rfl, he.cells⟩

theorem Encoding.emit_beside {e e' : Encoding} (hs : s.Twins F T s')
    (hwords : s.SameWords F t t' s')
    (he : Encoding.Beside e e') :
    Outcome.Beside F Encoding.Beside (e.emit t s) (e'.emit t' s') := by
  have hboth : Outcome.Beside F Eq ((e.scope t s).words s) ((e'.scope t' s').words s') := by
    unfold Encoding.scope
    rw [he.locator, hs.number]
    exact hwords _
  unfold Encoding.emit
  refine hboth.bind_eq fun words => ?_
  rw [he.locator]
  refine (Outcome.Beside.refl hF _).bind_eq fun loc => .ok ⟨rfl, ?_⟩
  simp only [List.map_append, List.map_reverse, Cell.content_place hs.number, he.cells]

/-- One step of both encodings. -/
theorem Encoding.step_beside {e e' : Encoding} (hs : s.Twins F T s') (ht : T t t')
    (hwords : s.SameWords F t t' s') (he : Encoding.Beside e e') :
    Outcome.Beside F Encoding.Beside (settled (Encoding.step t e s))
      (settled (Encoding.step t' e' s')) := by
  rw [Encoding.settled_step, Encoding.settled_step]
  exact (Encoding.mark_beside hF hs ht he).bind fun _ _ hmarked =>
    Encoding.emit_beside hF hs hwords hmarked

/-! ## Programs -/

/-- Programs with the same words at the same addresses, from lines of the same numbers, and with
tables that `T` relates. -/
structure Program.Beside (T : SymbolTable → SymbolTable → Prop) (p p' : Program) : Prop where
  origin : p'.origin = p.origin
  cells : p'.cells.map Cell.content = p.cells.map Cell.content
  symbols : T p.symbols p'.symbols

variable {statements statements' : List Statement}

/-- Both surveys as a whole, from predefined symbols that both have. -/
theorem Assembler.survey_beside (a : Assembler)
    (hseed : ∀ seeded, SymbolTable.empty.defineAll a.predefined.toList = .ok seeded →
      T seeded seeded)
    (hs : List.Forall₂ (Statement.Twins F T) statements statements') :
    Outcome.Beside (Error.Beside F) T (settled (a.survey statements).result)
      (settled (a.survey statements').result) := by
  unfold Assembler.survey
  cases hdefine : SymbolTable.empty.defineAll a.predefined.toList with
  | error fault => exact .error ⟨rfl, hF fault⟩
  | ok seeded =>
    have hstart : Survey.Beside T (.start seeded) (.start seeded) := ⟨rfl, hseed seeded hdefine⟩
    have hwalk :=
      Walk.through_beside (P := Statement.Twins F T) (fun _ _ h => ⟨h.number, h.isEnd⟩)
      (fun _ _ _ _ => Survey.step_beside hF) hs hstart
    simp only [Survey.walk]
    rcases hwalk.of_settled with ⟨hx, hy, hfinal⟩ | ⟨error, error', hx, hy, herror⟩
    · simp only at hx hy
      rw [hx, hy]
      exact .ok hfinal.symbols
    · simp only at hx hy
      rw [hx, hy]
      exact .error herror

/-- Both encodings as a whole. -/
theorem Assembler.encode_beside (a : Assembler) (ht : T t t')
    (hs : List.Forall₂ (fun s s' => s.Twins F T s' ∧ s.SameWords F t t' s') statements
      statements') :
    Outcome.Beside (Error.Beside F) (Program.Beside T) (a.encode statements t).result
      (a.encode statements' t').result := by
  have hwalk := Walk.through_beside (fun _ _ h => ⟨h.1.number, h.1.isEnd⟩)
    (fun _ _ _ _ h => Encoding.step_beside hF h.1 ht h.2) hs
    (show Encoding.Beside .start .start from ⟨rfl, rfl⟩)
  simp only [Assembler.encode, Encoding.walk, Encoding.program]
  rcases hwalk.of_settled with ⟨hx, hy, hfinal⟩ | ⟨error, error', hx, hy, herror⟩
  · simp only at hx hy
    rw [hx, hy]
    refine .ok ⟨congrArg Locator.origin hfinal.locator, ?_, ht⟩
    simp only [List.map_reverse, hfinal.cells]
  · simp only at hx hy
    rw [hx, hy]
    exact .error herror

end Passes

/-! ## Sources with the same table -/

/-- Statements that mean the same in every scope. -/
structure Statement.Alike [Interpreter] (F : Fault → Fault → Prop) (s s' : Statement) :
    Prop where
  number : s'.line.number = s.line.number
  operation : s'.operation = s.operation
  label : s'.label = s.label
  origin : s.operation = .keyword .orig →
    ∀ scope : Scope, Beside F Eq (scope.origin s) (scope.origin s')
  size : ∀ scope : Scope, Beside F Eq (scope.size s) (scope.size s')
  words : ∀ scope : Scope, Beside F Eq (scope.words s) (scope.words s')

section Sources

variable [Interpreter]

variable {F : Fault → Fault → Prop} (hF : ∀ fault, F fault fault)

include hF

/-- Statements with the same label and keyword, the operands of which are read alike in
every scope. -/
theorem Statement.alike_of_operands {W : Text → Text → Prop} {s s' : Statement}
    (h : ∀ m scope, Scope.ReadAlike F W m scope scope) (hnumber : s'.line.number = s.line.number)
    (hop : s'.operation = s.operation) (hlabel : s'.label = s.label)
    (hoperands : List.Forall₂ W s.operands s'.operands) : s.Alike F s' where
  number := hnumber
  operation := hop
  label := hlabel
  origin := fun _ scope => Scope.origin_beside hF (h _ scope) hop hoperands
  size := fun scope => Scope.size_beside hF hop hoperands fun m _ => h m scope
  words := fun scope => Scope.words_beside hF hop hoperands fun m _ => h m scope

theorem Statement.Alike.twins {s s' : Statement} (h : s.Alike F s') : s.Twins F Eq s' := by
  refine ⟨h.number, h.operation, ?_, ?_, ?_⟩
  · rw [h.label]
    cases s.label with
    | none => exact .none
    | some name =>
      refine .some ?_
      rintro t _ address rfl
      exact .refl hF _
  · rintro hop t _ address line rfl
    exact h.origin hop _
  · rintro t _ address line rfl
    exact h.size _

theorem Assembler.assembleStatements_beside (a : Assembler)
    {statements statements' : List Statement}
    (hs : List.Forall₂ (Statement.Alike F) statements statements') :
    Outcome.Beside (Error.Beside F) (Program.Beside Eq) (a.assembleStatements statements).result
      (a.assembleStatements statements').result := by
  have hsurvey := Assembler.survey_beside hF a (T := Eq) (fun _ _ => rfl)
    (hs.imp fun _ _ h => h.twins hF)
  have hencode : ∀ symbols, Outcome.Beside (Error.Beside F) (Program.Beside Eq)
      (a.encode statements symbols).result (a.encode statements' symbols).result := fun symbols =>
    Assembler.encode_beside hF a rfl (hs.imp fun _ _ h => ⟨h.twins hF, fun _ => h.words _⟩)
  unfold Assembler.assembleStatements
  generalize a.survey statements = first, a.survey statements' = first' at hsurvey ⊢
  obtain ⟨⟨symbols, stop⟩, log⟩ := first
  obtain ⟨⟨symbols', stop'⟩, log'⟩ := first'
  rcases hsurvey.of_settled with ⟨hx, hy, hsymbols⟩ | ⟨error, error', hx, hy, herror⟩
  · cases hx
    cases hy
    cases hsymbols
    exact hencode symbols
  · cases hx
    cases hy
    exact .error herror

omit hF in
/-- Listings of lines that are taken apart alike. -/
theorem Listing.ofLines_beside (implicitLabels : Bool) {lines lines' : List SourceLine}
    (h : List.Forall₂ (fun line line' => line'.number = line.number ∧
      Outcome.Beside F (Option.Rel (Statement.Alike F)) (Statement.ofLine implicitLabels line)
        (Statement.ofLine implicitLabels line')) lines lines') :
    Outcome.Beside (Error.Beside F) (List.Forall₂ (Statement.Alike F))
      (settled ((ofLines implicitLabels lines).statements, (ofLines implicitLabels lines).error))
      (settled ((ofLines implicitLabels lines').statements,
        (ofLines implicitLabels lines').error)) := by
  induction h with
  | nil => exact .ok .nil
  | @cons line line' rest rest' hline _ ih =>
    obtain ⟨hnumber, hboth⟩ := hline
    cases hx : Statement.ofLine implicitLabels line with
    | error fault =>
      cases hy : Statement.ofLine implicitLabels line' with
      | error fault' =>
        rw [hx, hy] at hboth
        cases hboth with
        | error hfault =>
          rw [ofLines_error hx, ofLines_error hy]
          exact .error (Error.beside_located hnumber hfault)
      | ok found' => rw [hx, hy] at hboth; cases hboth
    | ok found =>
      cases hy : Statement.ofLine implicitLabels line' with
      | error fault' => rw [hx, hy] at hboth; cases hboth
      | ok found' =>
        rw [hx, hy] at hboth
        cases hboth.of_ok with
        | none =>
          rw [ofLines_none hx, ofLines_none hy]
          exact ih
        | @some s s' hs =>
          have hend : s'.isEnd = s.isEnd := by
            unfold Statement.isEnd
            rw [hs.operation]
          cases hfinish : s.isEnd with
          | true =>
            rw [ofLines_end hx hfinish, ofLines_end hy (hend.trans hfinish)]
            exact .ok (.cons hs .nil)
          | false =>
            rw [ofLines_next hx hfinish, ofLines_next hy (hend.trans hfinish)]
            rcases ih.of_settled with ⟨hrest, hrest', hstatements⟩ |
              ⟨error, error', hrest, hrest', herror⟩
            · simp only at hrest hrest'
              rw [hrest, hrest']
              exact .ok (.cons hs hstatements)
            · simp only at hrest hrest'
              rw [hrest, hrest']
              exact .error herror

/-- Lines that are taken apart alike are assembled alike. -/
theorem Assembler.assembleLines_beside (a : Assembler) {lines lines' : List SourceLine}
    (h : List.Forall₂ (fun line line' => line'.number = line.number ∧
      Outcome.Beside F (Option.Rel (Statement.Alike F)) (Statement.ofLine a.implicitLabels line)
        (Statement.ofLine a.implicitLabels line')) lines lines') :
    Outcome.Beside (Error.Beside F) (Program.Beside Eq) (a.assembleLines lines).result
      (a.assembleLines lines').result := by
  have hlistings := Listing.ofLines_beside a.implicitLabels h
  unfold Assembler.assembleLines
  generalize Listing.ofLines a.implicitLabels lines = listing,
    Listing.ofLines a.implicitLabels lines' = listing' at hlistings ⊢
  obtain ⟨statements, stop⟩ := listing
  obtain ⟨statements', stop'⟩ := listing'
  rcases hlistings.of_settled with ⟨hx, hy, hstatements⟩ | ⟨error, error', hx, hy, herror⟩
  · cases hx
    cases hy
    exact Assembler.assembleStatements_beside hF a hstatements
  · cases hx
    cases hy
    exact .error herror

end Sources

end LittleComputer
