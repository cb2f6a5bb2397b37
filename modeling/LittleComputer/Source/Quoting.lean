import LittleComputer.Text.Glyph

/-!
# Strings and comments

A double quote opens a string and the next one closes it, unless a backslash inside the string
stands right before it. A comment runs from the first semicolon outside of strings to the end of the
line.
-/

namespace LittleComputer

inductive Quoting where
  | outside
  | inside
  /-- Inside, behind a backslash: the next character is taken as it is. -/
  | escaped
deriving DecidableEq, Repr, Inhabited

namespace Quoting

/-- Where the character behind `c` stands. -/
def next : Quoting → Char → Quoting
  | .outside, c => if c = '"' then .inside else .outside
  | .inside, c => if c = '"' then .outside else if c = '\\' then .escaped else .inside
  | .escaped, _ => .inside

/-- Where the end of a text stands. -/
def after (q : Quoting) (t : Text) : Quoting := t.foldl (fun q g => q.next g.scalar) q

@[simp] theorem after_nil (q : Quoting) : q.after [] = q := rfl

@[simp] theorem after_cons (q : Quoting) (g : Glyph) (t : Text) :
    q.after (g :: t) = (q.next g.scalar).after t := rfl

theorem after_append (q : Quoting) (s t : Text) : q.after (s ++ t) = (q.after s).after t := by
  simp [after]

end Quoting

namespace Text

/-- Keeps what stands before the comment; `seen` is what was kept so far, last glyph first. -/
def stripCommentFrom : Quoting → Text → (seen : Text) → Text
  | _, [], seen => seen.reverse
  | q, g :: rest, seen =>
    if q = .outside ∧ g = .char ';' then seen.reverse
    else stripCommentFrom (q.next g.scalar) rest (g :: seen)

/-- The text without its comment. -/
def stripComment (t : Text) : Text := stripCommentFrom .outside t []

end Text

end LittleComputer
