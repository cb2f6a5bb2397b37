import LittleComputer.Proofs.Decoding
import LittleComputer.Proofs.Interpreter
import LittleComputer.Proofs.Outcome

/-!
# Operands in larger scopes

What an operand of `.ORIG` or `.BLKW` gives in one scope it gives in every scope that knows at least
as much. So the two passes, which read these operands with different symbols, come to the same
sizes. Further facts of operands that both passes rest on: the words of a statement take the bytes
that its size says, and reading operands never fails with a fault of placement.

That values are kept is a law of the interpreter; whatever else is said here holds of any one.
-/

namespace LittleComputer

open Outcome

/-- The only operand is an operand. -/
theorem Statement.mem_of_operand {st : Statement} {word : Text} (h : st.operand = .ok word) :
    word ∈ st.operands := by
  unfold operand at h
  split at h
  · rename_i hoperands
    cases h
    rw [hoperands]
    exact List.mem_singleton_self word
  · cases h

variable [Interpreter]

namespace Scope

/-- Every name that means something in the first scope means the same in the second. -/
def Below (s t : Scope) : Prop := Expression.MoreNames s.name? t.name?

/-- An expression has a value exactly if the run of its text leaves a number. -/
theorem evaluate_eq_ok {s : Scope} {body : Text} {v : Int} :
    s.evaluate body = .ok v ↔
      (Interpreter.execute s.name? (resultText body)).number? = some v := by
  unfold evaluate
  cases hrun : Interpreter.execute s.name? (resultText body) with
  | crash reason => exact ⟨nofun, nofun⟩
  | _ =>
    simp only
    split
    · rename_i w hw
      rw [hw, Except.ok.injEq, Option.some.injEq]
    · rename_i hnone
      rw [hnone]
      exact ⟨nofun, nofun⟩

section Steady

variable [Interpreter.Steady]

theorem number_of_below {s t : Scope} (h : s.Below t) {word : Text} {v : Int}
    (hv : s.number word = .ok v) : t.number word = .ok v := by
  unfold number at hv ⊢
  cases hword : word.expression? with
  | none => simpa only [hword] using hv
  | some body =>
    simp only [hword] at hv ⊢
    have hnumber := evaluate_eq_ok.mp hv
    have hrun : Interpreter.execute s.name? (resultText body) ≠ .failure := by
      intro hfailure
      rw [hfailure] at hnumber
      cases hnumber
    rw [evaluate_eq_ok, Interpreter.Steady.execute_of_moreNames h hrun]
    exact hnumber

theorem immediate_of_below {s t : Scope} (h : s.Below t) {f : Field} {word : Text}
    {b : BitVec f.bits} (hb : s.immediate f word = .ok b) : t.immediate f word = .ok b := by
  unfold immediate at hb ⊢
  cases hv : s.number word with
  | error fault => simp [hv] at hb
  | ok v =>
    rw [hv] at hb
    rw [number_of_below h hv]
    exact hb

theorem origin_of_below {s t : Scope} (h : s.Below t) {st : Statement} {o : UInt16}
    (ho : s.origin st = .ok o) : t.origin st = .ok o := by
  obtain ⟨word, hword, ho⟩ := bind_eq_ok.mp ho
  obtain ⟨b, hb, rfl⟩ := map_eq_ok.mp ho
  exact bind_eq_ok.mpr ⟨word, hword, map_eq_ok.mpr ⟨b, immediate_of_below h hb, rfl⟩⟩

theorem blockCount_of_below {s t : Scope} (h : s.Below t) {st : Statement} {n : Nat}
    (hn : s.blockCount st = .ok n) : t.blockCount st = .ok n := by
  obtain ⟨word, hword, hn⟩ := bind_eq_ok.mp hn
  obtain ⟨b, hb, rfl⟩ := map_eq_ok.mp hn
  exact bind_eq_ok.mpr ⟨word, hword, map_eq_ok.mpr ⟨b, immediate_of_below h hb, rfl⟩⟩

/-- Only `.BLKW` looks at the scope for its size. -/
theorem size_of_below {s t : Scope} (h : s.Below t) {st : Statement} {n : Nat}
    (hn : s.size st = .ok n) : t.size st = .ok n := by
  unfold size at hn ⊢
  split at hn
  · exact hn
  · exact hn
  · exact hn
  · obtain ⟨count, hcount, rfl⟩ := map_eq_ok.mp hn
    exact map_eq_ok.mpr ⟨count, blockCount_of_below h hcount, rfl⟩
  · exact hn
  · exact hn

theorem relocate_of_below {s t : Scope} (h : s.Below t) {loc loc' : Locator} {st : Statement}
    (hloc : s.relocate loc st = .ok loc') : t.relocate loc st = .ok loc' := by
  unfold relocate at hloc ⊢
  split at hloc
  · obtain ⟨o, ho, hloc⟩ := bind_eq_ok.mp hloc
    exact bind_eq_ok.mpr ⟨o, origin_of_below h ho, hloc⟩
  · exact hloc

end Steady

/-- The words of a statement take exactly the bytes that its size counts. -/
theorem size_of_words {scope : Scope} {st : Statement} {ws : List UInt16}
    (h : scope.words st = .ok ws) : scope.size st = .ok (wordSize * ws.length) := by
  unfold words at h
  split at h
  case h_1 hop => cases h; simp [size, hop]
  case h_2 hop => cases h
  case h_3 hop => cases h; simp [size, hop]
  case h_4 hop => cases h; simp [size, hop]
  case h_5 hop =>
    obtain ⟨word, -, h⟩ := bind_eq_ok.mp h
    obtain ⟨w, -, h⟩ := bind_eq_ok.mp h
    cases pure_eq_ok.mp h
    simp [size, hop]
  case h_6 hop =>
    obtain ⟨n, hn, h⟩ := bind_eq_ok.mp h
    cases pure_eq_ok.mp h
    simp only [size, hop, List.length_replicate]
    exact map_eq_ok.mpr ⟨n, hn, rfl⟩
  case h_7 hop =>
    obtain ⟨string, hstring, h⟩ := bind_eq_ok.mp h
    cases pure_eq_ok.mp h
    simp only [size, hop, List.length_append, List.length_singleton]
    exact map_eq_ok.mpr ⟨string, hstring, rfl⟩
  case h_8 m horig hend hfill hblkw hstringz hop =>
    obtain ⟨i, -, h⟩ := bind_eq_ok.mp h
    cases pure_eq_ok.mp h
    -- an instruction is none of the four directives that are sized in another way
    simp only [size, hop, List.length_singleton, Nat.mul_one]
    split
    all_goals simp_all

end Scope

/-- Faults of the operands of a statement, or of the keyword that should read them. -/
def Fault.concernsOperands : Fault → Bool
  | .unknownInstruction _ | .undefinedLabel _ | .invalidRegister _ | .invalidImmediate _
  | .invalidExpression _ | .immediateRange _ _ _ | .offsetRange _ _ | .operandCount _ _ _
  | .malformedString | .emptyOperand | .crash _ => true
  | _ => false

/-- A property of all faults that operands give rise to, apart from the crashes. -/
def CoversOperands (p : Fault → Prop) : Prop :=
  ∀ fault : Fault, fault.concernsOperands = true → fault.isCrash = false → p fault

/-- The crashes that a word gives rise to have the property too: one reader looks at a word before
it knows that there is something in it, and an expression is handed to the interpreter. -/
structure Text.CrashesOnlyWith (p : Fault → Prop) (word : Text) : Prop where
  empty : word = [] → p .emptyOperand
  expression : ∀ body, word.expression? = some body → ∀ names reason,
    Interpreter.execute names (resultText body) = .crash reason → p (.crash reason)

section Readers

variable {p : Fault → Prop} (hp : CoversOperands p)

section Words

omit [Interpreter]

include hp

theorem Register.parse_fails (word : Text) : FailsOnlyWith p (Register.parse word) := by
  unfold Register.parse
  split
  · exact .ok _
  · exact .error (hp _ rfl rfl)

theorem Statement.operand_fails (st : Statement) : FailsOnlyWith p st.operand := by
  unfold Statement.operand
  split
  · exact .ok _
  · exact .error (hp _ rfl rfl)

theorem Statement.stringWords_fails (st : Statement) : FailsOnlyWith p st.stringWords := by
  unfold Statement.stringWords
  split
  · exact .error (hp _ rfl rfl)
  · refine .bind (st.operand_fails hp) fun word => ?_
    unfold StringLiteral.words
    split
    · exact .ok _
    · exact .error (hp _ rfl rfl)

end Words

namespace Scope

variable (scope : Scope)

section Word

variable {word : Text} (hword : word.CrashesOnlyWith p)

include hp hword

theorem number_fails : FailsOnlyWith p (scope.number word) := by
  unfold number
  split
  · rename_i body hbody
    unfold evaluate
    split
    · rename_i reason hcrash
      exact .error (hword.expression body hbody scope.name? reason hcrash)
    · split
      · exact .ok _
      · exact .error (hp _ rfl rfl)
  · split
    · exact .ok _
    · exact .error (hp _ rfl rfl)

theorem immediate_fails (f : Field) : FailsOnlyWith p (scope.immediate f word) := by
  unfold immediate
  split
  · unfold Field.pack
    exact .ite (.ok _) (.error (hp _ rfl rfl))
  · rename_i fault h
    exact .error (scope.number_fails hp hword fault h)

theorem immediateOrLabel_fails (f : Field) : FailsOnlyWith p (scope.immediateOrLabel f word) := by
  unfold immediateOrLabel
  split
  · exact .ite (.error (hp _ rfl rfl)) (.error (hp _ rfl rfl))
  · exact scope.immediate_fails hp hword f

theorem offset_fails (bits : Nat) : FailsOnlyWith p (scope.offset bits word) := by
  unfold offset
  split
  · exact .ite (.ok _) (.error (hp _ rfl rfl))
  · exact scope.immediateOrLabel_fails hp hword _

theorem word_fails : FailsOnlyWith p (scope.word word) := by
  unfold Scope.word
  split
  · exact .ok _
  · exact FailsOnlyWith.map (scope.immediateOrLabel_fails hp hword Field.word) UInt16.ofBitVec

end Word

include hp

theorem operate_fails (op : Operator) (target left : Text) {right : Text}
    (hright : right.CrashesOnlyWith p) : FailsOnlyWith p (scope.operate op target left right) := by
  refine (Register.parse_fails hp target).bind fun dr =>
    (Register.parse_fails hp left).bind fun sr => ?_
  split
  · exact .error (hright.empty rfl)
  · exact .ite ((Register.parse_fails hp _).bind fun _ => .pure _)
      ((scope.immediate_fails hp hright _).bind fun _ => .pure _)

theorem instruction_fails (m : Mnemonic) {operands : List Text}
    (hwords : ∀ word ∈ operands, word.CrashesOnlyWith p) :
    FailsOnlyWith p (scope.instruction m operands) := by
  unfold instruction instruction.tooManyOrFew
  split
  · exact (Register.parse_fails hp _).bind fun _ =>
      (Register.parse_fails hp _).bind fun _ => .pure _
  · exact .ok _
  · exact (Register.parse_fails hp _).bind fun _ => .pure _
  · exact .ok _
  · exact (scope.offset_fails hp (hwords _ (by simp)) _).bind fun _ => .pure _
  · exact (Register.parse_fails hp _).bind fun _ => .pure _
  · exact (Register.parse_fails hp _).bind fun _ =>
      (scope.offset_fails hp (hwords _ (by simp)) _).bind fun _ => .pure _
  · exact (scope.immediate_fails hp (hwords _ (by simp)) _).bind fun _ => .pure _
  · exact .ok _
  · exact .ok _
  · split
    · exact (scope.offset_fails hp (hwords _ (by simp)) _).bind fun _ => .pure _
    · exact .error (hp _ rfl rfl)
  · split
    · exact scope.operate_fails hp _ _ _ (hwords _ (by simp))
    · exact (Register.parse_fails hp _).bind fun _ => (Register.parse_fails hp _).bind fun _ =>
        (scope.immediate_fails hp (hwords _ (by simp)) _).bind fun _ => .pure _
    · exact (Register.parse_fails hp _).bind fun _ => (Register.parse_fails hp _).bind fun _ =>
        (scope.immediate_fails hp (hwords _ (by simp)) _).bind fun _ => .pure _
    · exact .error (hp _ rfl rfl)
  · exact .error (hp _ rfl rfl)

section Statement

variable {st : Statement} (hwords : ∀ word ∈ st.operands, word.CrashesOnlyWith p)

include hwords

/-- The only operand of a statement is one of its operands. -/
theorem operand_bind_fails {α : Type} {next : Text → Except Fault α}
    (hnext : ∀ word, word.CrashesOnlyWith p → FailsOnlyWith p (next word)) :
    FailsOnlyWith p (st.operand >>= next) := by
  intro fault hfault
  cases hoperand : st.operand with
  | error fault' =>
    rw [hoperand] at hfault
    cases hfault
    exact st.operand_fails hp _ hoperand
  | ok word =>
    rw [hoperand] at hfault
    exact hnext word (hwords word (Statement.mem_of_operand hoperand)) fault hfault

theorem origin_fails : FailsOnlyWith p (scope.origin st) :=
  operand_bind_fails hp hwords fun _ hword =>
    FailsOnlyWith.map (scope.immediate_fails hp hword (Field.unsigned 16)) UInt16.ofBitVec

theorem blockCount_fails : FailsOnlyWith p (scope.blockCount st) :=
  operand_bind_fails hp hwords fun _ hword => (scope.immediate_fails hp hword _).map _

theorem size_fails : FailsOnlyWith p (scope.size st) := by
  unfold size
  split
  · exact .ok _
  · exact .ok _
  · exact .ok _
  · exact (scope.blockCount_fails hp hwords).map _
  · exact (st.stringWords_fails hp).map _
  · exact .ok _

/-- Turning a statement into words fails because of its operands only, never because of
its place. -/
theorem words_fails : FailsOnlyWith p (scope.words st) := by
  unfold words
  split
  · exact .ok _
  · exact .error (hp _ rfl rfl)
  · exact .ok _
  · exact .ok _
  · exact operand_bind_fails hp hwords fun _ hword =>
      (scope.word_fails hp hword).bind fun _ => .pure _
  · exact (scope.blockCount_fails hp hwords).bind fun _ => .pure _
  · exact (st.stringWords_fails hp).bind fun _ => .pure _
  · rw [scope.encode_eq]
    exact ((scope.instruction_fails hp _ hwords).map _).bind fun _ => .pure _

end Statement

end Scope

end Readers

theorem Scope.words_reads (scope : Scope) (st : Statement) :
    FailsOnlyWith (fun fault => fault.concernsOperands = true) (scope.words st) :=
  scope.words_fails (fun _ hfault _ => hfault) fun _ _ => ⟨fun _ => rfl, fun _ _ _ _ _ => rfl⟩

end LittleComputer
