import LittleComputer.Expression.Evaluation
import LittleComputer.Proofs.Interpreter
import LittleComputer.Proofs.UpperCase

/-!
# Arithmetic with symbols

An expression that calculates with symbols is followed through all its stages: its text is cut into
tokens, the names among them are resolved, and what is left is evaluated. The names of symbols are
written in capitals, which no word of the expression language is, so none of them is taken for
another.
-/

namespace LittleComputer.Expression

/-! ## Names in capitals -/

theorem ascii_of_capitalPart {c : Char} (h : isCapitalPart c = true) : c.toNat < 128 := by
  simp only [isCapitalPart, isCapital, Bool.or_eq_true, Bool.and_eq_true, decide_eq_true_eq,
    beq_iff_eq] at h
  rcases h with (⟨-, h⟩ | ⟨-, h⟩) | rfl
  · have hlast : c.toNat ≤ 90 := UInt32.le_iff_toNat_le.mp h
    omega
  · have hlast : c.toNat ≤ 57 := UInt32.le_iff_toNat_le.mp h
    omega
  · decide

/-- A character of a name, wherever it stands in it. -/
structure NamePart (c : Char) : Prop where
  part : Token.isNamePart c = true
  notSmall : isSmall c = false
  notReturn : c ≠ '\r'
  upper : upperChar c = c

instance (c : Char) : Decidable (NamePart c) :=
  decidable_of_iff (Token.isNamePart c = true ∧ isSmall c = false ∧ c ≠ '\r' ∧
    upperChar c = c)
    ⟨fun ⟨hpart, hsmall, hreturn, hupper⟩ => ⟨hpart, hsmall, hreturn, hupper⟩,
    fun h => ⟨h.part, h.notSmall, h.notReturn, h.upper⟩⟩

theorem namePart_of_capitalPart {c : Char} (h : isCapitalPart c = true) : NamePart c :=
  ascii_of_numbers (p := fun c => isCapitalPart c = true → NamePart c) (by decide) c
    (ascii_of_capitalPart h) h

theorem capitalPart_of_capital {c : Char} (h : isCapital c = true) : isCapitalPart c = true := by
  simp [isCapitalPart, h]

/-- A character that starts a word, and neither a string, a blank, a comment nor the rest of
a mark. -/
structure NameStart (c : Char) : Prop where
  start : Token.isNameStart c = true
  notQuote : Token.isQuote c = false
  notSpecial : c ∉ ['\x00', '\n', ' ', '\t', '#', '\\', '=']
  /-- A small `r` or `b` can belong to a string. -/
  notPrefix : c ≠ 'r' ∧ c ≠ 'b'

instance (c : Char) : Decidable (NameStart c) :=
  decidable_of_iff (Token.isNameStart c = true ∧ Token.isQuote c = false ∧
      c ∉ ['\x00', '\n', ' ', '\t', '#', '\\', '='] ∧ c ≠ 'r' ∧ c ≠ 'b')
    ⟨fun ⟨hstart, hquote, hspecial, hstring⟩ => ⟨hstart, hquote, hspecial, hstring⟩,
    fun h => ⟨h.start, h.notQuote, h.notSpecial, h.notPrefix⟩⟩

theorem nameStart_of_capital {c : Char} (h : isCapital c = true) : NameStart c :=
  ascii_of_numbers (p := fun c => isCapital c = true → NameStart c) (by decide) c
    (ascii_of_capitalPart (capitalPart_of_capital h)) h

section CapitalName

variable {s : String} (h : isCapitalName s = true)

include h

theorem cons_of_capitalName : ∃ c rest, s.toList = c :: rest ∧ isCapital c = true ∧
    ∀ d ∈ rest, isCapitalPart d = true := by
  unfold isCapitalName at h
  split at h
  · cases h
  · rename_i c rest hs
    rw [Bool.and_eq_true, List.all_eq_true] at h
    exact ⟨c, rest, hs, h⟩

theorem namePart_of_mem {c : Char} (hc : c ∈ s.toList) : NamePart c := by
  obtain ⟨first, rest, hs, hfirst, hrest⟩ := cons_of_capitalName h
  rw [hs] at hc
  rcases List.mem_cons.mp hc with rfl | hc
  · exact namePart_of_capitalPart (capitalPart_of_capital hfirst)
  · exact namePart_of_capitalPart (hrest c hc)

/-- A name in capitals is its own upper-case form. -/
theorem upper_of_capitalName : (s : Text).upper = s := by
  apply String.toList_injective
  rw [Text.toList_upper, Text.scalars_ofString]
  exact (List.map_congr_left fun c hc => (namePart_of_mem h hc).upper).trans (List.map_id _)

theorem ne_of_small {t : String} (ht : t.toList.any isSmall = true) : s ≠ t := by
  rintro rfl
  obtain ⟨c, hc, hsmall⟩ := List.any_eq_true.mp ht
  rw [(namePart_of_mem h hc).notSmall] at hsmall
  cases hsmall

end CapitalName

/-- The names that mean something in every expression. -/
def givenNames : List String :=
  Token.keywords.map (·.1) ++ Builtin.table.map (·.1) ++ ["None", "True", "False", resultName]

/-- Every one of them holds a small letter. -/
theorem not_given {s : String} (h : isCapitalName s = true) : s ∉ givenNames := by
  have htable : ∀ t ∈ givenNames, t.toList.any isSmall = true := by decide
  exact fun hs => ne_of_small h (htable s hs) rfl

theorem lookup_eq_none {α : Type} {table : List (String × α)} {s : String}
    (h : s ∉ table.map (·.1)) :
    table.lookup s = none := by
  rw [List.lookup_eq_none_iff]
  intro entry hentry
  rw [bne_iff_ne]
  rintro rfl
  exact h (List.mem_map_of_mem hentry)

theorem ofWord_of_capitalName {s : String} (h : isCapitalName s = true) :
    Token.ofWord s.toList = .name s := by
  have hkeyword : s ∉ Token.keywords.map (·.1) := fun hs =>
    not_given h (List.mem_append_left _ (List.mem_append_left _ hs))
  unfold Token.ofWord
  simp only [String.ofList_toList, lookup_eq_none hkeyword, Option.getD_none]

theorem builtinTerm?_of_capitalName {s : String} (h : isCapitalName s = true) :
    builtinTerm? s = none := by
  have hgiven := not_given h
  simp only [givenNames, List.mem_append, List.mem_cons, List.not_mem_nil, or_false, not_or]
    at hgiven
  obtain ⟨⟨-, hbuiltin⟩, hnone, htrue, hfalse, -⟩ := hgiven
  unfold builtinTerm?
  rw [if_neg hnone, if_neg htrue, if_neg hfalse, lookup_eq_none hbuiltin]
  rfl

/-! ## Scanning -/

/-- The characters of the text that is run for an expression. -/
theorem scalars_resultText (body : Text) :
    (resultText body).scalars = resultName.toList ++ '=' :: body.scalars ++ ['\n'] := by
  simp only [resultText, Text.scalars_append, Text.scalars_ofString, Text.scalars_cons]
  rfl

namespace Token

/-- Characters that belong to a token already are passed over. -/
theorem ofCharsFrom_skip (depth : Nat) (levels : List Nat) (line : Line) (comment : Bool)
    (taken rest : List Char) (seen : List Token) :
    ofCharsFrom taken.length depth levels line comment (taken ++ rest) seen =
      ofCharsFrom 0 depth levels line comment rest seen := by
  induction taken with
  | nil => rfl
  | cons c taken ih =>
    rw [List.length_cons, List.cons_append, ofCharsFrom]
    exact ih

theorem scan_name {s : String} (h : isCapitalName s = true) {c : Char} {tail rest : List Char}
    (hs : s.toList = c :: tail) (hrest : rest.head?.any isNamePart = false) :
    scan c (tail ++ rest) = some (.name s, tail.length) := by
  obtain ⟨first, others, hs', hfirst, hothers⟩ := cons_of_capitalName h
  obtain ⟨rfl, rfl⟩ := List.cons.inj (hs.symm.trans hs')
  have hc := nameStart_of_capital hfirst
  have htake : (tail ++ rest).takeWhile isNamePart = tail := by
    rw [List.takeWhile_append_of_pos fun d hd => (namePart_of_capitalPart (hothers d hd)).part]
    match rest with
    | [] => simp
    | d :: _ =>
      have hd : isNamePart d = false := hrest
      simp [hd]
  have hplain : scanWord c (tail ++ rest) = some (ofWord (c :: tail), tail.length) := by
    unfold scanWord
    simp only [htake, hc.notPrefix.1, hc.notPrefix.2, or_self, false_and, if_false]
    split
    · rfl
    · rfl
  unfold scan
  rw [hc.notQuote, hc.start, hplain, ← hs, ofWord_of_capitalName h]
  rfl

/-- A name in capitals is one token. -/
theorem ofCharsFrom_name {s : String} (h : isCapitalName s = true) (depth : Nat) (levels : List Nat)
    {rest : List Char} (hrest : rest.head?.any isNamePart = false) (seen : List Token) :
    ofCharsFrom 0 depth levels .begun false (s.toList ++ rest) seen =
      ofCharsFrom 0 depth levels .begun false rest (.name s :: seen) := by
  obtain ⟨c, tail, hs, hc, -⟩ := cons_of_capitalName h
  have hspecial := (nameStart_of_capital hc).notSpecial
  simp only [List.mem_cons, List.not_mem_nil, or_false, not_or] at hspecial
  obtain ⟨hnul, hnewline, hblank, htab, hcomment, hbackslash, -⟩ := hspecial
  rw [hs, List.cons_append, ofCharsFrom]
  simp only [hnul, hnewline, hblank, htab, hcomment, hbackslash, or_self, Bool.false_eq_true,
    if_false, dentsBefore, scan_name h hs hrest, depthAfter, List.nil_append, List.cons_append]
  exact ofCharsFrom_skip depth levels .begun false tail rest (.name s :: seen)

theorem unifyNewlines_of_not_mem {text : List Char} (h : '\r' ∉ text) (seen : List Char) :
    unifyNewlines text seen = seen.reverse ++ text := by
  fun_induction unifyNewlines text seen with
  | case1 seen => simp
  | case2 seen rest ih => simp at h
  | case3 seen c rest hpair ih =>
    rw [List.mem_cons, not_or] at h
    rw [ih h.2]
    simp [Ne.symm h.1]

/-- The text of an expression is cut as if the assignment in front of it were not there. -/
theorem ofText?_result {body : List Char} (hreturn : '\r' ∉ body)
    (hassign : body.head? ≠ some '=') :
    ofText? (resultName.toList ++ '=' :: body ++ ['\n']) =
      ofCharsFrom 0 0 [] .begun false (body ++ ['\n']) [.assign, .name resultName] := by
  have htext : '\r' ∉ resultName.toList ++ '=' :: body ++ ['\n'] := by
    simpa [resultName] using hreturn
  have hmark : scan '=' (body ++ ['\n']) = some (.assign, 0) := by
    show scanMark '=' (body ++ ['\n']) = some (.assign, 0)
    match body with
    | [] => rfl
    | c :: rest =>
      have hc : c ≠ '=' := fun h => hassign (congrArg some h)
      simp [scanMark, hc]
  unfold ofText?
  rw [unifyNewlines_of_not_mem htext]
  show ofCharsFrom 0 0 [] .begun false ('=' :: (body ++ ['\n'])) [.name resultName] = _
  rw [ofCharsFrom]
  simp [hmark, dentsBefore, depthAfter]

end Token

/-! ## Evaluation -/

/-- The term stands for an integer: its names can be resolved, and then it has the integer as its
value and leaves the memory as it is. -/
def Term.Means (free : String → Option Int) (around : Bindings) (t : Term) (v : Int) : Prop :=
  ∃ closed, t.close? free around = some closed ∧
    ∀ (call : Caller) (env : Environment) (store : Store),
      closed.eval call env store = .ok (.int v, store)

/-- An action that has run hands its result and the memory on. -/
theorem bind_of_run {α β : Type} {x : Action α} {next : α → Action β} {store store' : Store}
    {a : α}
    (h : x store = .ok (a, store')) : (x >>= next) store = next a store' := by
  show (x store).bind _ = _
  rw [h]
  rfl

namespace Term.Means

variable {free : String → Option Int} {around : Bindings} {s : String} {t l r : Term}
  {v a b : Int}

theorem int (v : Int) : (Term.int v).Means free around v := by
  refine ⟨.int v, by simp only [Term.close?], fun call env store => ?_⟩
  simp only [Term.eval]
  rfl

theorem name (hbound : around.find? s = Option.none) (hbuiltin : builtinTerm? s = Option.none)
    (hfree : free s = some v) : (Term.name s).Means free around v := by
  refine ⟨.int v, ?_, fun call env store => ?_⟩
  · simp only [Term.close?, hbound, hbuiltin, hfree, Option.map_some]
  · simp only [Term.eval]
    rfl

theorem paren (h : t.Means free around v) : (Term.paren t).Means free around v := by
  obtain ⟨closed, hclose, heval⟩ := h
  refine ⟨.paren closed, ?_, fun call env store => ?_⟩
  · simp only [Term.close?, hclose]
    rfl
  · simp only [Term.eval]
    exact heval call env store

/-- An operator on integers that gives an integer. -/
theorem binary {op : BinaryOperator} (hl : l.Means free around a) (hr : r.Means free around b)
    (hop : ∀ store, op.apply (.int a) (.int b) store = .ok (.int v, store)) :
    (Term.binary op l r).Means free around v := by
  obtain ⟨left, hleft, heval⟩ := hl
  obtain ⟨right, hright, heval'⟩ := hr
  refine ⟨.binary op left right, ?_, fun call env store => ?_⟩
  · simp only [Term.close?, hleft, hright]
    rfl
  · simp only [Term.eval]
    rw [bind_of_run (heval call env store), bind_of_run (heval' call env store)]
    exact hop store

theorem subtract (hl : l.Means free around a) (hr : r.Means free around b) :
    (Term.binary .subtract l r).Means free around (a - b) :=
  hl.binary hr fun _ => rfl

/-- Integers are divided with the result rounded down. -/
theorem floorDivide (hl : l.Means free around a) (hr : r.Means free around b) (hb : b ≠ 0) :
    (Term.binary .floorDivide l r).Means free around (Int.fdiv a b) := by
  refine hl.binary hr fun store => ?_
  show ofOption ((floorDivide? a b).map Value.int) store = _
  unfold floorDivide?
  rw [if_neg hb]
  rfl

end Term.Means

/-- What stands around the terms of a text that is a single assignment. -/
def resultBindings : Bindings := Bindings.within [resultName] []

/-- A symbol means its address. -/
theorem Term.means_symbol {free : String → Option Int} {s : String} {v : Int}
    (h : isCapitalName s = true)
    (hfree : free s = some v) : (Term.name s).Means free resultBindings v := by
  have hresult : s ≠ resultName := by
    rintro rfl
    cases h
  refine .name ?_ (builtinTerm?_of_capitalName h) hfree
  simp [resultBindings, Bindings.within, Bindings.find?, Bindings.findFrom?, hresult]

/-- A text that assigns the result leaves it there. -/
theorem Statement.result_assign {closed : Term} {v : Value} (depth : Nat)
    (h : ∀ (call : Caller) (env : Environment) (store : Store),
      closed.eval call env store = .ok (v, store)) :
    Action.execution
      (Statement.result depth [.assign (.bound ⟨0, 0, resultName⟩) closed] resultName) =
        v.execution := by
  let before : Store := ⟨#[[]], #[], 0⟩
  let after : Store := ⟨#[[((0, resultName), v)]], #[], 0⟩
  have hframe : newFrame [] Store.empty = .ok (0, before) := rfl
  have hassign : (Statement.assign (.bound ⟨0, 0, resultName⟩) closed).run (callWithin depth [])
      [0] before = .ok (.next, after) := by
    simp only [Statement.run]
    rw [bind_of_run (h _ _ _)]
    simp only [Target.assign]
    rfl
  have hrun : Statement.runAll (callWithin depth []) [0]
      [.assign (.bound ⟨0, 0, resultName⟩) closed] before = .ok (.next, after) := by
    simp only [Statement.runAll]
    rw [bind_of_run hassign]
    rfl
  unfold Action.execution Statement.result
  rw [bind_of_run hframe, bind_of_run hrun]
  rfl

/-- An expression whose tokens make up one term has the integer for which the term stands. -/
theorem execute_of_means {free : String → Option Int} {body : Text} {tokens : List Token}
    {t : Term} {v : Int} (htokens : Token.ofText? (resultText body).scalars = some tokens)
    (hterm : Statement.ofTokens? tokens = some [.assign (.name resultName) t])
    (hmeans : t.Means free resultBindings v) : execute free (resultText body) = .integer v := by
  obtain ⟨closed, hclose, heval⟩ := hmeans
  have htext : Statement.closeText? free [.assign (.name resultName) t] =
      some [.assign (.bound ⟨0, 0, resultName⟩) closed] := by
    show Statement.closeAll? free resultBindings .text [.assign (.name resultName) t] = _
    simp only [Statement.closeAll?, Statement.close?, Target.close?, hclose]
    rfl
  unfold execute action?
  simp only [htokens, hterm, htext, Option.bind_eq_bind, Option.bind_some,
    Statement.result_assign _ heval]
  rfl

/-! ## Two expressions -/

section Calculation

variable {free : String → Option Int} {s : String} {v a pc : Int}

theorem no_return_of_capitalName (h : isCapitalName s = true) : '\r' ∉ s.toList :=
  fun hmem => (namePart_of_mem h hmem).notReturn rfl

/-- The value of an expression that is only a symbol. -/
theorem execute_symbol (h : isCapitalName s = true) (hfree : free s = some v) :
    execute free (resultText (s : Text)) = .integer v := by
  have hassign : s.toList.head? ≠ some '=' := by
    obtain ⟨c, rest, hs, hc, -⟩ := cons_of_capitalName h
    rw [hs]
    rintro ⟨⟩
    cases hc
  have htokens : Token.ofText? (resultText (s : Text)).scalars =
      some [.name resultName, .assign, .name s, .newline] := by
    rw [scalars_resultText, Text.scalars_ofString,
      Token.ofText?_result (no_return_of_capitalName h) hassign, Token.ofCharsFrom_name h 0 [] rfl]
    rfl
  exact execute_of_means htokens rfl (Term.means_symbol h hfree)

/-- The value of a displacement. -/
theorem execute_displacementTo (h : isCapitalName s = true) (hfree : free s = some a)
    (hpc : free "PC" = some pc) :
    execute free (resultText (displacementTo s)) = .integer (Int.fdiv (a - pc - 2) 2) := by
  have htext : (displacementTo s).scalars = '(' :: (s.toList ++ " - PC - 2) // 2".toList) := by
    simp only [displacementTo, Text.scalars_append, Text.scalars_ofString]
    rfl
  have hreturn : '\r' ∉ '(' :: (s.toList ++ " - PC - 2) // 2".toList) := by
    simp [no_return_of_capitalName h]
  have htokens : Token.ofText? (resultText (displacementTo s)).scalars =
      some [.name resultName, .assign, .leftParen, .name s, .minus, .name "PC", .minus, .int 2,
        .rightParen, .doubleSlash, .int 2, .newline] := by
    rw [scalars_resultText, htext, Token.ofText?_result hreturn (by simp)]
    show Token.ofCharsFrom 0 1 [] .begun false ((s.toList ++ " - PC - 2) // 2".toList) ++ ['\n'])
      [.leftParen, .assign, .name resultName] = _
    rw [List.append_assoc, Token.ofCharsFrom_name h 1 [] rfl]
    rfl
  have hdifference := ((Term.means_symbol h hfree).subtract
    (Term.means_symbol (by decide) hpc)).subtract (.int 2)
  exact execute_of_means htokens rfl (hdifference.paren.floorDivide (.int 2) (by decide))

end Calculation

instance : Interpreter.Calculates := ⟨execute_symbol, execute_displacementTo⟩

end LittleComputer.Expression
