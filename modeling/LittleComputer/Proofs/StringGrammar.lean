import Mathlib.Data.List.Forall2
import LittleComputer.Operand.StringLiteral

/-!
# The grammar of string literals

A literal is a sequence of items between two quotes. An item is a character other than quote and
backslash, a stray byte, or a backslash with one of seven characters behind it, and stands for one
word. The reader looks at both ends first and then goes from item to item, so a quote that belongs
to an escape is not taken for the last one: a text that ends in it has no item left for its
backslash.
-/

namespace LittleComputer.StringLiteral

/-- The characters that may stand behind a backslash, each with the word that the two stand for. -/
def escapes : List (Char × UInt16) :=
  [('n', 0x0A), ('r', 0x0D), ('t', 0x09), ('e', 0x1B), ('0', 0x00), ('\\', 0x5C), ('"', 0x22)]

/-- The text is one item, and the word is what it stands for. -/
inductive Item : Text → UInt16 → Prop where
  | plain {c : Char} {w : UInt16} (hquote : c ≠ '"') (hbackslash : c ≠ '\\')
      (hw : w.toNat = c.toNat % 0x10000) : Item [.char c] w
  | stray (b : UInt8) : Item [.stray b] 0xFFFD
  | escape {c : Char} {w : UInt16} (h : (c, w) ∈ escapes) : Item [.char '\\', .char c] w

/-- The text is a literal, and the words are those of its items. -/
inductive Spells : Text → List UInt16 → Prop where
  | literal {items : List Text} {ws : List UInt16} (h : List.Forall₂ Item items ws) :
      Spells (("\"" : Text) ++ items.flatten ++ ("\"" : Text)) ws

/-! ## Items -/

variable {c : Char} {w : UInt16} {ws : List UInt16} {t body item : Text}

theorem wordOf_eq_iff : wordOf c = w ↔ w.toNat = c.toNat % 0x10000 := by
  rw [← UInt16.toNat_inj, eq_comm]
  rfl

/-- The table of escapes is the one that is read by. -/
theorem mem_escapes_iff : (c, w) ∈ escapes ↔ (escaped? c).map wordOf = some w := by
  constructor
  · intro h
    have htable : ∀ entry ∈ escapes, (escaped? entry.1).map wordOf = some entry.2 := by decide
    exact htable _ h
  · intro h
    unfold escaped? at h
    split at h
    case h_8 => cases h
    all_goals
      cases h
      decide

theorem wordsFrom?_nil (seen : List UInt16) : wordsFrom? [] seen = some seen.reverse := rfl

theorem wordsFrom?_plain (hquote : c ≠ '"') (hbackslash : c ≠ '\\') (rest : List Char)
    (seen : List UInt16) :
    wordsFrom? (c :: rest) seen = wordsFrom? rest (wordOf c :: seen) := by
  simp [wordsFrom?, hquote, hbackslash]

theorem wordsFrom?_backslash (c : Char) (rest : List Char) (seen : List UInt16) :
    wordsFrom? ('\\' :: c :: rest) seen =
      ((escaped? c).map wordOf).bind fun w => wordsFrom? rest (w :: seen) := by
  rw [wordsFrom?]
  cases escaped? c with
  | none => rfl
  | some e => rfl

/-- An item in front is read as its word. -/
theorem wordsFrom?_item (h : Item item w) (rest : Text) (seen : List UInt16) :
    wordsFrom? (Text.scalars (item ++ rest)) seen = wordsFrom? (Text.scalars rest) (w :: seen) := by
  cases h with
  | @plain c _ hquote hbackslash hw =>
    rw [← wordOf_eq_iff.mpr hw]
    exact wordsFrom?_plain hquote hbackslash _ seen
  | stray b => exact wordsFrom?_plain (c := replacementChar) (by decide) (by decide) _ seen
  | @escape c _ hescape =>
    have hread := wordsFrom?_backslash c (Text.scalars rest) seen
    rw [mem_escapes_iff.mp hescape] at hread
    exact hread

/-- What can be read starts with an item. -/
theorem exists_item (hne : body ≠ []) {seen : List UInt16}
    (h : wordsFrom? (Text.scalars body) seen = some ws) :
    ∃ item rest w, Item item w ∧ body = item ++ rest := by
  obtain ⟨g, rest, rfl⟩ := List.exists_cons_of_ne_nil hne
  cases g with
  | stray b => exact ⟨[.stray b], rest, 0xFFFD, .stray b, rfl⟩
  | char c =>
    by_cases hquote : c = '"'
    · subst hquote
      cases h
    by_cases hbackslash : c = '\\'
    · subst hbackslash
      match rest with
      | [] => cases h
      | g :: rest =>
        rw [Text.scalars_cons, Text.scalars_cons, Glyph.scalar_char, wordsFrom?_backslash] at h
        obtain ⟨w, hw, -⟩ := Option.bind_eq_some_iff.mp h
        cases g with
        | char c =>
          exact ⟨[.char '\\', .char c], rest, w, .escape (mem_escapes_iff.mpr hw), rfl⟩
        | stray b => cases hw
    · exact ⟨[.char c], rest, wordOf c, .plain hquote hbackslash (wordOf_eq_iff.mp rfl), rfl⟩

theorem Item.ne_nil (h : Item item w) : item ≠ [] := by
  cases h <;> simp

/-! ## Literals -/

/-- What stands between the quotes is read item by item. -/
theorem wordsFrom?_eq_some {seen : List UInt16} : wordsFrom? (Text.scalars body) seen = some ws ↔
    ∃ items more, List.Forall₂ Item items more ∧ body = items.flatten ∧
      ws = seen.reverse ++ more := by
  constructor
  · intro h
    -- every item takes at least one glyph off
    induction hlength : body.length using Nat.strongRecOn generalizing body seen with
    | ind n ih =>
      by_cases hbody : body = []
      · subst hbody
        cases h
        exact ⟨[], [], .nil, rfl, by simp⟩
      · obtain ⟨item, rest, w, hitem, rfl⟩ := exists_item hbody h
        rw [wordsFrom?_item hitem] at h
        have hshorter : rest.length < n := by
          have hpos := List.length_pos_iff.mpr hitem.ne_nil
          rw [List.length_append] at hlength
          omega
        obtain ⟨items, more, hitems, rfl, rfl⟩ := ih rest.length hshorter h rfl
        exact ⟨item :: items, w :: more, .cons hitem hitems, rfl, by simp⟩
  · rintro ⟨items, more, hitems, rfl, rfl⟩
    induction hitems generalizing seen with
    | nil => simp [wordsFrom?_nil]
    | cons hitem hitems ih =>
      rw [List.flatten_cons, wordsFrom?_item hitem, ih]
      simp

theorem body?_eq_some : body? t = some body ↔ t = ("\"" : Text) ++ body ++ ("\"" : Text) := by
  constructor
  · intro h
    unfold body? at h
    split at h
    · rename_i rest
      split at h
      · rename_i hlast
        cases h
        obtain ⟨front, rfl⟩ := List.getLast?_eq_some_iff.mp hlast
        rw [List.dropLast_concat]
        rfl
      · cases h
    · cases h
  · rintro rfl
    show (if (body ++ [Glyph.char '"']).getLast? = some (.char '"') then
      some (body ++ [Glyph.char '"']).dropLast else none) = some body
    rw [List.getLast?_concat, if_pos rfl, List.dropLast_concat]

theorem spells_iff : Spells t ws ↔
    ∃ body, body? t = some body ∧ wordsFrom? (Text.scalars body) [] = some ws := by
  simp only [body?_eq_some, wordsFrom?_eq_some]
  constructor
  · intro h
    cases h with
    | literal hitems => exact ⟨_, rfl, _, _, hitems, rfl, rfl⟩
  · rintro ⟨_, rfl, items, _, hitems, rfl, rfl⟩
    exact .literal hitems

end LittleComputer.StringLiteral

namespace LittleComputer

open StringLiteral in
/-- String literals are read exactly. A word is read as words of 16 bits if and only if it is a
literal that spells them, one for each item, and any other word is a malformed string. -/
theorem string_literals_are_read_exactly (literal : Text) :
    (∀ ws, words literal = .ok ws ↔ Spells literal ws) ∧
    ∀ fault, words literal = .error fault ↔
      fault = .malformedString ∧ ¬ ∃ ws, Spells literal ws := by
  simp only [spells_iff, ← Option.bind_eq_some_iff]
  unfold words
  cases (body? literal).bind fun body => wordsFrom? (Text.scalars body) [] with
  | none => simp [eq_comm]
  | some ws => simp

end LittleComputer
