import LittleComputer.Source.Quoting

/-!
# What strings and parentheses enclose

`Closes` is the grammar of texts in which every string and every parenthesis that is opened is
closed again. A scan keeps a `Place` instead: whether it is in a string, and in how many
parentheses. For every place there is the form of the texts that lead to it, so that a scan is
outside of everything exactly behind the texts of the grammar.
-/

namespace LittleComputer

/-- What can stand between the quotes of a string: characters other than quote and backslash, and a
backslash with any character behind it. -/
inductive StringBody : List Char → Prop where
  | nil : StringBody []
  | char {s : List Char} {c : Char} (hs : StringBody s) (hquote : c ≠ '"')
      (hbackslash : c ≠ '\\') :
      StringBody (s ++ [c])
  | escape {s : List Char} (hs : StringBody s) (c : Char) : StringBody (s ++ ['\\', c])

/-- Every string and every parenthesis that the text opens is closed in it. A `nested` text stands
in parentheses itself, and a closing one that is its own would end it; elsewhere a closing
parenthesis too many is a character like others. -/
inductive Closes : (nested : Bool) → List Char → Prop where
  | nil {nested : Bool} : Closes nested []
  | char {nested : Bool} {t : List Char} {c : Char} (ht : Closes nested t) (hquote : c ≠ '"')
      (hopen : c ≠ '(')
      (hclose : nested = true → c ≠ ')') : Closes nested (t ++ [c])
  | string {nested : Bool} {t s : List Char} (ht : Closes nested t) (hs : StringBody s) :
      Closes nested (t ++ '"' :: (s ++ ['"']))
  | group {nested : Bool} {t u : List Char} (ht : Closes nested t) (hu : Closes true u) :
      Closes nested (t ++ '(' :: (u ++ [')']))

/-! ## Places -/

/-- Where a character stands: in a string or not, and in how many parentheses. -/
structure Place where
  quoting : Quoting
  depth : Nat
deriving DecidableEq

namespace Place

def outside (depth : Nat) : Place := ⟨.outside, depth⟩

def inside (depth : Nat) : Place := ⟨.inside, depth⟩

/-- The place behind a character. -/
def next (p : Place) (c : Char) : Place :=
  ⟨p.quoting.next c,
    if p.quoting = .outside then
      if c = '(' then p.depth + 1 else if c = ')' then p.depth - 1 else p.depth
    else p.depth⟩

/-- The place behind a text. -/
def after (p : Place) (t : List Char) : Place := t.foldl next p

variable {p : Place} {depth : Nat} {c : Char} {s t u : List Char}

@[simp] theorem after_nil (p : Place) : p.after [] = p := rfl

@[simp] theorem after_cons (p : Place) (c : Char) (t : List Char) :
    p.after (c :: t) = (p.next c).after t := rfl

@[simp] theorem after_append (p : Place) (s t : List Char) :
    p.after (s ++ t) = (p.after s).after t :=
  List.foldl_append

theorem next_quote (depth : Nat) : (outside depth).next '"' = inside depth := rfl

theorem next_endquote (depth : Nat) : (inside depth).next '"' = outside depth := rfl

theorem next_open (depth : Nat) : (outside depth).next '(' = outside (depth + 1) := rfl

theorem next_close (depth : Nat) : (outside depth).next ')' = outside (depth - 1) := rfl

theorem next_other (hquote : c ≠ '"') (hopen : c ≠ '(') (hclose : c ≠ ')') :
    (outside depth).next c = outside depth := by
  simp [outside, next, Quoting.next, hquote, hopen, hclose]

theorem after_stringBody (h : StringBody s) : (inside depth).after s = inside depth := by
  induction h with
  | nil => rfl
  | char hs hquote hbackslash ih =>
    rw [after_append, ih]
    simp [inside, next, Quoting.next, hquote, hbackslash]
  | escape hs c ih =>
    rw [after_append, ih]
    rfl

/-- A text that closes what it opens ends where it starts. -/
theorem after_of_closes {nested : Bool} (h : Closes nested t)
    (hdepth : nested = false → depth = 0) :
    (outside depth).after t = outside depth := by
  induction h generalizing depth with
  | nil => rfl
  | @char nested t c ht hquote hopen hclose ih =>
    rw [after_append, ih hdepth, after_cons, after_nil]
    by_cases hc : c = ')'
    · -- only a text that is not nested may close a parenthesis that it did not open
      have hflat : nested = false := by
        cases nested with
        | false => rfl
        | true => exact absurd hc (hclose rfl)
      rw [hc, hdepth hflat]
      rfl
    · exact next_other hquote hopen hc
  | string ht hs ih =>
    rw [after_append, ih hdepth, after_cons, next_quote, after_append, after_stringBody hs,
      after_cons, next_endquote, after_nil]
  | group ht hu ih ihu =>
    rw [after_append, ih hdepth, after_cons, next_open, after_append, ihu nofun, after_cons,
      next_close, after_nil, Nat.add_sub_cancel]

end Place

/-! ## What stands in front of a place -/

/-- The text opens a number of parentheses that it does not close, and closes all its strings. -/
inductive Opens : Nat → List Char → Prop where
  | none {t : List Char} (ht : Closes false t) : Opens 0 t
  | one {depth : Nat} {t u : List Char} (ht : Opens depth t) (hu : Closes true u) :
      Opens (depth + 1) (t ++ '(' :: u)

namespace Opens

variable {depth : Nat} {c : Char} {s t u : List Char}

theorem char (h : Opens depth t) (hquote : c ≠ '"') (hopen : c ≠ '(') (hclose : c ≠ ')') :
    Opens depth (t ++ [c]) := by
  cases h with
  | none ht => exact .none (ht.char hquote hopen fun _ => hclose)
  | one ht hu =>
    rw [List.append_assoc]
    exact .one ht (hu.char hquote hopen fun _ => hclose)

theorem string (h : Opens depth t) (hs : StringBody s) :
    Opens depth (t ++ '"' :: (s ++ ['"'])) := by
  cases h with
  | none ht => exact .none (ht.string hs)
  | one ht hu =>
    rw [List.append_assoc]
    exact .one ht (hu.string hs)

theorem group (h : Opens depth t) (hu : Closes true u) :
    Opens depth (t ++ '(' :: (u ++ [')'])) := by
  cases h with
  | none ht => exact .none (ht.group hu)
  | one ht hu' =>
    rw [List.append_assoc]
    exact .one ht (hu'.group hu)

/-- A closing parenthesis closes the last one that is open, if there is one. -/
theorem close (h : Opens depth t) : Opens (depth - 1) (t ++ [')']) := by
  cases h with
  | none ht => exact .none (ht.char (by decide) (by decide) nofun)
  | one ht hu =>
    rw [List.append_assoc]
    exact ht.group hu

end Opens

/-- The text leads to the place. -/
inductive Leads : List Char → Place → Prop where
  | outside {depth : Nat} {t : List Char} (ht : Opens depth t) : Leads t ⟨.outside, depth⟩
  | inside {depth : Nat} {t s : List Char} (ht : Opens depth t) (hs : StringBody s) :
      Leads (t ++ '"' :: s) ⟨.inside, depth⟩
  | escaped {depth : Nat} {t s : List Char} (ht : Opens depth t) (hs : StringBody s) :
      Leads (t ++ '"' :: (s ++ ['\\'])) ⟨.escaped, depth⟩

namespace Leads

variable {p : Place} {t : List Char}

theorem next (h : Leads t p) (c : Char) : Leads (t ++ [c]) (p.next c) := by
  cases h with
  | outside ht =>
    by_cases hquote : c = '"'
    · subst hquote
      exact .inside ht .nil
    by_cases hopen : c = '('
    · subst hopen
      exact .outside (.one ht .nil)
    by_cases hclose : c = ')'
    · subst hclose
      exact .outside ht.close
    · rw [← Place.outside, Place.next_other hquote hopen hclose]
      exact .outside (ht.char hquote hopen hclose)
  | @inside depth t s ht hs =>
    rw [List.append_assoc, List.cons_append]
    by_cases hquote : c = '"'
    · subst hquote
      exact .outside (ht.string hs)
    by_cases hbackslash : c = '\\'
    · subst hbackslash
      exact .escaped ht hs
    · have hnext : Place.next ⟨.inside, depth⟩ c = ⟨.inside, depth⟩ := by
        simp [Place.next, Quoting.next, hquote, hbackslash]
      rw [hnext]
      exact .inside ht (hs.char hquote hbackslash)
  | @escaped depth t s ht hs =>
    rw [List.append_assoc, List.cons_append, List.append_assoc]
    exact .inside ht (hs.escape c)

theorem append (h : Leads t p) (u : List Char) : Leads (t ++ u) (p.after u) := by
  induction u generalizing t p with
  | nil =>
    rw [List.append_nil]
    exact h
  | cons c u ih =>
    have hrest := ih (h.next c)
    rwa [List.append_assoc, List.singleton_append] at hrest

theorem after (t : List Char) : Leads t ((Place.outside 0).after t) :=
  append (.outside (.none .nil)) t

end Leads

/-- The scan is outside of all strings and parentheses exactly behind a text that closes what it
opens. -/
theorem Place.after_eq_outside_iff {t : List Char} :
    (Place.outside 0).after t = .outside 0 ↔ Closes false t := by
  constructor
  · intro h
    have hleads := Leads.after t
    rw [h] at hleads
    cases hleads with
    | outside ht =>
      cases ht with
      | none ht => exact ht
  · intro h
    exact after_of_closes h fun _ => rfl

instance (t : List Char) : Decidable (Closes false t) :=
  decidable_of_iff _ Place.after_eq_outside_iff

end LittleComputer
