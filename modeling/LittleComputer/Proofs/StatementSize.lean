import LittleComputer.Expression.Evaluation
import LittleComputer.Proofs.Operand

/-!
# Words and sizes

How many bytes a statement takes is asked before it has words: by the survey, which has to know
where the next statement starts. The words come later, from another function with cases of its own.
A pass that compared the two would never find a difference, so `Encoding.emit` does not compare
them.
-/

namespace LittleComputer

open Outcome

section

variable [Interpreter]

namespace Scope

variable {scope : Scope} {s : Statement}

/-- Where the size is read off an operand, it is the size of the words, and what is wrong with the
operand is wrong with both. -/
theorem size_eq_words (h : s.operation = .keyword .blkw ∨ s.operation = .keyword .stringz) :
    scope.size s = (fun words => wordSize * words.length) <$> scope.words s := by
  rcases h with hop | hop
  · unfold size words
    simp only [hop]
    cases scope.blockCount s with
    | error fault => rfl
    | ok count =>
      show Except.ok (wordSize * count) =
        .ok (wordSize * (List.replicate count (0 : UInt16)).length)
      rw [List.length_replicate]
  · unfold size words
    simp only [hop]
    cases s.stringWords with
    | error fault => rfl
    | ok string =>
      show Except.ok (wordSize * (string.length + 1)) =
        .ok (wordSize * (string ++ [(0 : UInt16)]).length)
      rw [List.length_append, List.length_singleton]

end Scope

/-- Places the words of a statement, but holds them against its size first. There is no result where
the two differ: the run ends there. -/
def Encoding.emitCompared (e : Encoding) (symbols : SymbolTable) (s : Statement) :
    Except Fault (Option Encoding) := do
  let words ← (e.scope symbols s).words s
  let size ← (e.scope symbols s).size s
  if size ≠ wordSize * words.length then return none
  let cells := Cell.place e.locator.address s.line words
  let loc ← e.locator.advance size
  return some ⟨loc, cells.reverse ++ e.cells⟩

theorem Encoding.emitCompared_eq (e : Encoding) (symbols : SymbolTable) (s : Statement) :
    e.emitCompared symbols s = some <$> e.emit symbols s := by
  unfold emitCompared emit
  cases hwords : (e.scope symbols s).words s with
  | error fault => rfl
  | ok words =>
    rw [Scope.size_of_words hwords]
    show (if wordSize * words.length ≠ wordSize * words.length then _ else _) =
      some <$> (e.locator.advance (wordSize * words.length) >>= _)
    rw [if_neg (not_not_intro rfl)]
    cases e.locator.advance (wordSize * words.length) with
    | error fault => rfl
    | ok loc => rfl

/-- Words and size of a statement agree in every scope: two bytes for each word. Comparing them
while the words are placed finds no difference. A `.BLKW` or `.STRINGZ` that has no words has no
size either, for the same fault. -/
theorem size_counts_words (scope : Scope) (s : Statement) :
    (∀ words, scope.words s = .ok words → scope.size s = .ok (2 * words.length)) ∧
    (∀ (e : Encoding) (symbols : SymbolTable),
      e.emitCompared symbols s = some <$> e.emit symbols s) ∧
    (s.operation = .keyword .blkw ∨ s.operation = .keyword .stringz →
      ∀ fault, scope.words s = .error fault ↔ scope.size s = .error fault) := by
  refine ⟨fun words => Scope.size_of_words, fun e symbols => e.emitCompared_eq symbols s,
    fun hop fault => ?_⟩
  rw [Scope.size_eq_words hop]
  cases scope.words s with
  | error other =>
    show Except.error other = Except.error fault ↔ Except.error other = Except.error fault
    simp only [Except.error.injEq]
  | ok words => exact ⟨nofun, nofun⟩

end

/-- A block whose length is an expression takes six bytes, and a string with an unknown escape has
neither words nor a size. -/
theorem size_counts_words_reserving :
    let scope : Scope := ⟨.empty, 0x3000, 1⟩
    let block : Statement :=
      ⟨⟨1, ".BLKW $(LINENO + 2)"⟩, none, .keyword .blkw, ["$(LINENO + 2)"]⟩
    let string : Statement :=
      ⟨⟨2, ".STRINGZ \"\\q\""⟩, none, .keyword .stringz, ["\"\\q\""]⟩
    scope.words block = .ok [0, 0, 0] ∧ scope.size block = .ok 6 ∧
      scope.words string = .error .malformedString ∧
        scope.size string = .error .malformedString := by
  intro scope block string
  have hblock : scope.words block = .ok [0, 0, 0] := eq_ok_of_toOption (by decide +kernel)
  have hstring : scope.words string = .error .malformedString := by
    obtain ⟨fault, hfault, rfl⟩ : ∃ fault, scope.words string = .error fault ∧
        fault = .malformedString :=
      exists_error_of_run (by decide +kernel)
    exact hfault
  refine ⟨hblock, (size_counts_words scope block).1 _ hblock, hstring, ?_⟩
  exact ((size_counts_words scope string).2.2 (.inr rfl) _).mp hstring

end LittleComputer
