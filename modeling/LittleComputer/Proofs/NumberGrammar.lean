import LittleComputer.Expression.Evaluation
import LittleComputer.Operand.Scope
import LittleComputer.Proofs.UpperCase

/-!
# The grammar of numbers

A literal is a mark for the base, a sign and digits, of which the mark and the sign may be missing.
`Text.Denotes` is this grammar together with the integer that a literal stands for, of any size.
Reading a number decides it: a word that is no expression is read exactly if it denotes an integer
of 64 bits, and as that integer.
-/

namespace LittleComputer

/-- The digits in their order, letters in lower case. -/
def lowerDigits : List Char := "0123456789abcdef".toList

/-- The digits in their order, letters in upper case. -/
def upperDigits : List Char := "0123456789ABCDEF".toList

/-- The glyph is the digit `d` of the base, in either case. -/
def Glyph.Writes (base : Nat) (g : Glyph) (d : Nat) : Prop :=
  d < base ∧ ∃ c, g = .char c ∧ (lowerDigits[d]? = some c ∨ upperDigits[d]? = some c)

inductive Sign where
  | missing | plus | minus

namespace Sign

def text : Sign → Text
  | .missing => []
  | .plus => "+"
  | .minus => "-"

def applied : Sign → Nat → Int
  | .missing, n => n
  | .plus, n => n
  | .minus, n => -n

end Sign

namespace Text

/-- One or more digits of a base, with the number they denote. -/
inductive Digits (base : Nat) : Text → Nat → Prop where
  | one {g : Glyph} {d : Nat} (hg : g.Writes base d) : Digits base [g] d
  | more {t : Text} {n : Nat} {g : Glyph} {d : Nat} (ht : Digits base t n) (hg : g.Writes base d) :
      Digits base (t ++ [g]) (n * base + d)

/-- The marks that a literal can start with, each with its base. -/
def baseMarks : List (Text × Nat) :=
  [("", 10), ("#", 10), ("x", 16), ("X", 16), ("0x", 16), ("0X", 16)]

/-- The word is a literal that denotes the integer. -/
inductive Denotes : Text → Int → Prop where
  | literal {mark digits : Text} {base n : Nat} (sign : Sign) (hmark : (mark, base) ∈ baseMarks)
      (hdigits : Digits base digits n) : Denotes (mark ++ sign.text ++ digits) (sign.applied n)

end Text

/-! ## Digits -/

theorem digitValue?_of_beyond {c : Char} (h : 128 ≤ c.toNat) : digitValue? c = none := by
  unfold digitValue?
  simp only
  rw [if_neg (by omega), if_neg (by omega), if_neg (by omega)]

/-- The digits below sixteen are the members of the two lists. -/
theorem digitValue?_eq_some {c : Char} {d : Nat} (hd : d < 16) :
    digitValue? c = some d ↔ lowerDigits[d]? = some c ∨ upperDigits[d]? = some c := by
  have hascii : ∀ n < 128, ∀ d < 16, digitValue? (Char.ofNat n) = some d ↔
      lowerDigits[d]? = some (Char.ofNat n) ∨ upperDigits[d]? = some (Char.ofNat n) := by
        decide +kernel
  have hlists : (lowerDigits ++ upperDigits).all (·.toNat < 128) = true := by decide
  by_cases hc : c.toNat < 128
  · exact ascii_of_numbers (p := fun c => ∀ d < 16, digitValue? c = some d ↔
      lowerDigits[d]? = some c ∨ upperDigits[d]? = some c) hascii c hc d hd
  · rw [digitValue?_of_beyond (by omega)]
    refine ⟨nofun, fun h => absurd (of_decide_eq_true (List.all_eq_true.mp hlists c ?_)) hc⟩
    rcases h with h | h
    · exact List.mem_append_left _ (List.mem_of_getElem? h)
    · exact List.mem_append_right _ (List.mem_of_getElem? h)

namespace Glyph

variable {base d : Nat} {g : Glyph}

theorem digit?_eq_some (hbase : base ≤ 16) : g.digit? base = some d ↔ g.Writes base d := by
  unfold digit? Writes
  cases g with
  | stray b =>
    have hnone : digitValue? (stray b).scalar = none :=
      digitValue?_of_beyond (by decide : 128 ≤ 0xFFFD)
    rw [hnone]
    simp
  | char c =>
    simp only [scalar_char, char.injEq, exists_eq_left']
    constructor
    · intro h
      split at h
      · rename_i e he
        split at h
        · rename_i hlt
          obtain rfl : e = d := Option.some.inj h
          exact ⟨hlt, (digitValue?_eq_some (by omega)).mp he⟩
        · cases h
      · cases h
    · rintro ⟨hlt, hlists⟩
      rw [(digitValue?_eq_some (by omega)).mpr hlists]
      exact if_pos hlt

theorem Writes.ne (h : g.Writes base d) (hbase : base ≤ 16) {x : Glyph}
    (hx : x.digit? base = none) :
    g ≠ x := by
  rintro rfl
  cases hx.symm.trans ((digit?_eq_some hbase).mpr h)

end Glyph

namespace Text

variable {base n : Nat} {t word : Text}

theorem naturalFrom?_append (base : Nat) (t u : Text) (value : Nat) :
    naturalFrom? base (t ++ u) value = (naturalFrom? base t value).bind (naturalFrom? base u) := by
  induction t generalizing value with
  | nil => rfl
  | cons g rest ih =>
    simp only [List.cons_append, naturalFrom?]
    cases g.digit? base with
    | none => rfl
    | some d => exact ih _

theorem Digits.writes (h : Digits base t n) : ∀ g ∈ t, ∃ d, g.Writes base d := by
  induction h with
  | one hg =>
    intro g hmem
    cases List.mem_singleton.mp hmem
    exact ⟨_, hg⟩
  | more ht hg ih =>
    intro g hmem
    rcases List.mem_append.mp hmem with hmem | hmem
    · exact ih g hmem
    · cases List.mem_singleton.mp hmem
      exact ⟨_, hg⟩

theorem Digits.ne_nil (h : Digits base t n) : t ≠ [] := by
  cases h with
  | one hg => nofun
  | more ht hg => simp

/-- Digits that are read behind others go on with the number of those. -/
theorem Digits.append {s t : Text} {m n : Nat} (hbase : base ≤ 16) (hs : Digits base s m)
    (h : naturalFrom? base t m = some n) : Digits base (s ++ t) n := by
  induction t generalizing s m with
  | nil =>
    cases h
    rw [List.append_nil]
    exact hs
  | cons g rest ih =>
    simp only [naturalFrom?] at h
    split at h
    · rename_i d hd
      have hlonger := ih (hs.more ((Glyph.digit?_eq_some hbase).mp hd)) h
      rwa [List.append_assoc, List.singleton_append] at hlonger
    · cases h

theorem natural?_eq_some (hbase : base ≤ 16) : natural? base t = some n ↔ Digits base t n := by
  constructor
  · intro h
    match t with
    | [] => cases h
    | g :: rest =>
      simp only [natural?, List.isEmpty_cons, Bool.false_eq_true, if_false, naturalFrom?] at h
      split at h
      · rename_i d hd
        rw [Nat.zero_mul, Nat.zero_add] at h
        exact (Digits.one ((Glyph.digit?_eq_some hbase).mp hd)).append hbase h
      · cases h
  · intro h
    unfold natural?
    rw [if_neg (by simpa using h.ne_nil)]
    induction h with
    | one hg => simp [naturalFrom?, (Glyph.digit?_eq_some hbase).mpr hg]
    | more ht hg ih =>
      rw [naturalFrom?_append, ih]
      simp [naturalFrom?, (Glyph.digit?_eq_some hbase).mpr hg]

/-! ## Signs and marks -/

/-- The text does not start with a sign. -/
def IsUnsigned (t : Text) : Prop := ∀ g ∈ t.head?, g ≠ .char '+' ∧ g ≠ .char '-'

theorem Digits.isUnsigned (hbase : base ≤ 16) (h : Digits base t n) : t.IsUnsigned := by
  intro g hg
  obtain ⟨d, hd⟩ := h.writes g (List.mem_of_mem_head? hg)
  exact ⟨hd.ne hbase rfl, hd.ne hbase rfl⟩

theorem exists_sign (t : Text) :
    ∃ (sign : Sign) (rest : Text), t = sign.text ++ rest ∧
      (sign = .missing → rest.IsUnsigned) := by
  match t with
  | [] => exact ⟨.missing, [], rfl, fun _ => nofun⟩
  | g :: rest =>
    by_cases hplus : g = .char '+'
    · exact ⟨.plus, rest, by rw [hplus]; rfl, nofun⟩
    by_cases hminus : g = .char '-'
    · exact ⟨.minus, rest, by rw [hminus]; rfl, nofun⟩
    refine ⟨.missing, g :: rest, rfl, fun _ x hx => ?_⟩
    obtain rfl : g = x := Option.some.inj hx
    exact ⟨hplus, hminus⟩

/-- A sign is read off in front of the digits. -/
theorem integer?_append (base : Nat) (sign : Sign) (h : sign = .missing → t.IsUnsigned) :
    integer? base (sign.text ++ t) = (natural? base t).map sign.applied := by
  cases sign with
  | plus => rfl
  | minus =>
    show Option.map _ (natural? base t >>= _) = _
    cases natural? base t with
    | none => rfl
    | some n => rfl
  | missing =>
    match t with
    | [] => rfl
    | g :: rest =>
      obtain ⟨hplus, hminus⟩ := h rfl g rfl
      have hplus' : g.is '+' = false := by simpa [Glyph.is] using hplus
      have hminus' : g.is '-' = false := by simpa [Glyph.is] using hminus
      simp only [Sign.text, List.nil_append, integer?, hminus', hplus', Bool.false_eq_true,
        if_false]
      rfl

theorem integer?_eq_some (hbase : base ≤ 16) {v : Int} : integer? base t = some v ↔
    ∃ (sign : Sign) (digits : Text) (n : Nat), t = sign.text ++ digits ∧
      Digits base digits n ∧
      v = sign.applied n := by
  constructor
  · intro h
    obtain ⟨sign, rest, rfl, hunsigned⟩ := exists_sign t
    rw [integer?_append base sign hunsigned] at h
    obtain ⟨n, hn, rfl⟩ := Option.map_eq_some_iff.mp h
    exact ⟨sign, rest, n, rfl, (natural?_eq_some hbase).mp hn, rfl⟩
  · rintro ⟨sign, digits, n, rfl, hdigits, rfl⟩
    rw [integer?_append base sign fun _ => hdigits.isUnsigned hbase,
      (natural?_eq_some hbase).mpr hdigits]
    rfl

/-- What is split off to find the base is one of the marks. -/
theorem mark_of_splitBase {rest : Text} (h : word.splitBase = (base, rest)) :
    ∃ mark, (mark, base) ∈ baseMarks ∧ word = mark ++ rest := by
  unfold splitBase at h
  split at h
  · cases h
    exact ⟨"#", by decide, rfl⟩
  · cases h
    exact ⟨"0x", by decide, rfl⟩
  · cases h
    exact ⟨"0X", by decide, rfl⟩
  · cases h
    exact ⟨"x", by decide, rfl⟩
  · cases h
    exact ⟨"X", by decide, rfl⟩
  · cases h
    exact ⟨"", by decide, rfl⟩

theorem splitBase_of_not_mem (hmark : .char '#' ∉ t) (hlower : .char 'x' ∉ t)
    (hupper : .char 'X' ∉ t) :
    splitBase t = (10, t) := by
  unfold splitBase
  split
  all_goals simp_all

theorem not_mem_signed {digits : Text} (sign : Sign) (hdigits : Digits 10 digits n) {x : Char}
    (hsign : x ≠ '+' ∧ x ≠ '-') (hx : (Glyph.char x).digit? 10 = none) :
    .char x ∉ sign.text ++ digits := by
  intro hmem
  rcases List.mem_append.mp hmem with hmem | hmem
  · cases sign with
    | missing => cases hmem
    | plus => exact hsign.1 (Glyph.char.inj (List.mem_singleton.mp hmem))
    | minus => exact hsign.2 (Glyph.char.inj (List.mem_singleton.mp hmem))
  · obtain ⟨d, hd⟩ := hdigits.writes _ hmem
    exact hd.ne (by decide) hx rfl

/-- A mark is split off in front of a number of its base. Without a mark there is nothing in a
decimal number that could be taken for one. -/
theorem splitBase_append {mark digits : Text} (sign : Sign) (hmark : (mark, base) ∈ baseMarks)
    (hdigits : Digits base digits n) :
    splitBase (mark ++ (sign.text ++ digits)) = (base, sign.text ++ digits) := by
  simp only [baseMarks, List.mem_cons, Prod.mk.injEq, List.not_mem_nil, or_false] at hmark
  rcases hmark with ⟨rfl, rfl⟩ | ⟨rfl, rfl⟩ | ⟨rfl, rfl⟩ | ⟨rfl, rfl⟩ |
    ⟨rfl, rfl⟩ | ⟨rfl, rfl⟩
  · exact splitBase_of_not_mem (not_mem_signed sign hdigits (by decide) rfl)
      (not_mem_signed sign hdigits (by decide) rfl) (not_mem_signed sign hdigits (by decide) rfl)
  · rfl
  · rfl
  · rfl
  · rfl
  · rfl

theorem base_of_mark {mark : Text} (h : (mark, base) ∈ baseMarks) : base ≤ 16 := by
  have htable : ∀ entry ∈ baseMarks, entry.2 ≤ 16 := by decide
  exact htable _ h

/-- What a literal is read as is what it denotes. -/
theorem denoted?_eq_some {v : Int} : word.denoted? = some v ↔ word.Denotes v := by
  constructor
  · intro h
    cases hsplit : word.splitBase with
    | mk base rest =>
      unfold denoted? at h
      rw [hsplit] at h
      obtain ⟨mark, hmark, rfl⟩ := mark_of_splitBase hsplit
      obtain ⟨sign, digits, n, rfl, hdigits, rfl⟩ :=
        (integer?_eq_some (base_of_mark hmark)).mp h
      rw [← List.append_assoc]
      exact .literal sign hmark hdigits
  · intro h
    cases h with
    | literal sign hmark hdigits =>
      unfold denoted?
      rw [List.append_assoc, splitBase_append sign hmark hdigits]
      exact (integer?_eq_some (base_of_mark hmark)).mpr ⟨sign, _, _, rfl, hdigits, rfl⟩

/-- Expressions are the words between `$(` and `)`. -/
theorem expression?_eq_some {body : Text} :
    word.expression? = some body ↔ word = ("$(" : Text) ++ body ++ (")" : Text) := by
  constructor
  · intro h
    unfold expression? at h
    split at h
    · rename_i rest
      split at h
      · rename_i hlast
        cases h
        obtain ⟨front, hfront⟩ := List.getLast?_eq_some_iff.mp hlast
        rw [hfront, List.dropLast_concat]
        rfl
      · cases h
    · cases h
  · rintro rfl
    show (if (body ++ [Glyph.char ')']).getLast? = some (.char ')') then
      some (body ++ [Glyph.char ')']).dropLast else none) = some body
    rw [List.getLast?_concat, if_pos rfl, List.dropLast_concat]

end Text

theorem fitsInt64_iff (v : Int) :
    fitsInt64 v = true ↔ -0x8000000000000000 ≤ v ∧ v ≤ 0x7FFFFFFFFFFFFFFF := by
  unfold fitsInt64
  simp only [Bool.and_eq_true, decide_eq_true_eq]
  omega

theorem Text.literal?_eq_some {word : Text} {v : Int} :
    word.literal? = some v ↔
      word.Denotes v ∧ -0x8000000000000000 ≤ v ∧ v ≤ 0x7FFFFFFFFFFFFFFF := by
  unfold literal?
  rw [Option.filter_eq_some_iff, denoted?_eq_some, fitsInt64_iff]

theorem Scope.number_eq_literal [Interpreter] (scope : Scope) {word : Text}
    (h : ∀ body : Text, word ≠ ("$(" : Text) ++ body ++ (")" : Text)) :
    scope.number word = word.literal?.elim (.error (.invalidImmediate word)) .ok := by
  have hnone : word.expression? = none := by
    rw [Option.eq_none_iff_forall_not_mem]
    exact fun body hbody => h body (Text.expression?_eq_some.mp hbody)
  unfold number
  rw [hnone]
  cases word.literal? with
  | none => rfl
  | some v => rfl

/-- Numbers are read exactly. A word that is no expression denotes at most one integer. It is read
if it denotes an integer of 64 bits, as that integer, and otherwise it is an invalid immediate. -/
theorem numbers_are_read_exactly [Interpreter] (scope : Scope) (word : Text)
    (hword : ∀ body : Text, word ≠ ("$(" : Text) ++ body ++ (")" : Text)) :
    let Fits (v : Int) := -0x8000000000000000 ≤ v ∧ v ≤ 0x7FFFFFFFFFFFFFFF
    (∀ v w, word.Denotes v → word.Denotes w → v = w) ∧
    (∀ v, scope.number word = .ok v ↔ word.Denotes v ∧ Fits v) ∧
    ((¬ ∃ v, word.Denotes v ∧ Fits v) →
      scope.number word = .error (.invalidImmediate word)) := by
  intro Fits
  rw [scope.number_eq_literal hword]
  refine ⟨fun v w hv hw => ?_, fun v => ?_, fun hnone => ?_⟩
  · exact Option.some.inj
      ((Text.denoted?_eq_some.mpr hv).symm.trans (Text.denoted?_eq_some.mpr hw))
  · rw [← Text.literal?_eq_some]
    cases word.literal? with
    | none => simp
    | some w => simp
  · cases hliteral : word.literal? with
    | none => rfl
    | some v => exact absurd ⟨v, Text.literal?_eq_some.mp hliteral⟩ hnone

/-- The least integer of 64 bits is read, with its sign behind the mark. The same digits without the
sign denote one that is too large. -/
theorem numbers_are_read_exactly_least :
    let scope : Scope := ⟨.empty, 0x3000, 1⟩
    scope.number "X-8000000000000000" = .ok (-0x8000000000000000) ∧
      Text.Denotes "X8000000000000000" 0x8000000000000000 ∧
      scope.number "X8000000000000000" = .error (.invalidImmediate "X8000000000000000") := by
  intro scope
  have hleast : Text.Denotes "X-8000000000000000" (-0x8000000000000000) :=
    Text.denoted?_eq_some.mp (by decide)
  have hbeyond : Text.Denotes "X8000000000000000" 0x8000000000000000 :=
    Text.denoted?_eq_some.mp (by decide)
  obtain ⟨-, hread, -⟩ := numbers_are_read_exactly scope "X-8000000000000000" nofun
  obtain ⟨hunique, -, hfault⟩ := numbers_are_read_exactly scope "X8000000000000000" nofun
  refine ⟨(hread _).mpr ⟨hleast, by decide⟩, hbeyond, hfault ?_⟩
  rintro ⟨v, hv, hfits⟩
  rw [hunique v _ hv hbeyond] at hfits
  exact absurd hfits (by decide)

end LittleComputer
