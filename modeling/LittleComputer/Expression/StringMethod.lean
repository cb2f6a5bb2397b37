import LittleComputer.Expression.Operator
import LittleComputer.Text.Category
import LittleComputer.Text.Lower

/-!
# Methods of strings

Searching, cutting, joining and changing strings. Positions count bytes. White space and case are
those of characters, and a stray byte counts as U+FFFD.
-/

namespace LittleComputer.Expression

/-! ## Searching -/

/-- The bounds that two optional arguments leave of a sequence: start, and end not before it. -/
def window? (length : Nat) (bounds : List Value) : Option (Nat × Nat) :=
  let low := bounds.head?.getD .none
  let high := (bounds.drop 1).head?.getD .none
  if bounds.length ≤ 2 then
    (sliceBounds? length low high .none).map fun (start, stop, _) => (start.toNat, stop.toNat)
  else none

/-- The part of a string that two optional arguments leave, and where it starts. -/
def windowOf? (s : Bytes) (bounds : List Value) : Option (Bytes × Nat) :=
  (window? s.size bounds).map fun (start, stop) => (s.part start stop, start)

/-- Number of occurrences that do not overlap. The empty string occurs around each character. -/
def occurrences (part whole : Bytes) : Nat :=
  if part.size = 0 then (charsOf whole).length + 1
  else (Bytes.cut part whole whole.size).length - 1

/-- Whether a string, or one string of a tuple, passes a test. -/
def anyString? (test : Bytes → Bool) : Value → Option Bool
  | .string s => some (test s)
  | .tuple members => first members
  | _ => none
where
  first : List Value → Option Bool
    | [] => some false
    | .string s :: rest => if test s then some true else first rest
    | _ => none

/-! ## Cutting -/

/-- The parts between runs of blanks. After `left` cuts the next part takes the rest of the text. -/
def fields : (left : Nat) → Text → (part : Text) → (seen : List Text) → List Text
  | _, [], part, seen => (if part.isEmpty then seen else part.reverse :: seen).reverse
  | left, g :: rest, part, seen =>
    if g.isBlank then
      if part.isEmpty then fields left rest [] seen
      else
        match left with
        | 0 => ((part.reverse ++ g :: rest) :: seen).reverse
        | left + 1 => fields left rest [] (part.reverse :: seen)
    else fields left rest (g :: part) seen

/-- The same from the end of the text. -/
def fieldsFromEnd (left : Nat) (t : Text) : List Text :=
  ((fields left t.reverse [] []).map List.reverse).reverse

/-- Cuts a string at the last occurrences of a separator, at most `left` of them. -/
def cutFromEnd (separator : Bytes) (left : Nat) (s : Bytes) : List Bytes :=
  let parts := Bytes.cut separator s s.size
  let excess := parts.length - left
  if excess = 0 then parts
  else Bytes.join separator (parts.take excess) :: parts.drop excess

/-- How often to cut: a negative count means as often as possible. -/
def cuts? (length : Nat) : List Value → Option Nat
  | [] => some length
  | [v] => v.int64?.map fun n => if n < 0 then length else n.toNat
  | _ => none

/-- The parts that `split` or `rsplit` makes of a string. Without a separator it cuts at blanks. -/
def splitParts? (fromEnd : Bool) (s : Bytes) (given : List Value) : Option (List Bytes) := do
  let n ← cuts? s.size (given.drop 1)
  match given.head?.getD .none with
  | .none =>
    let t := Text.ofBytes s.toList
    some ((if fromEnd then fieldsFromEnd n t else fields n t [] []).map fun part =>
      Bytes.ofList (Text.toBytes part))
  | .string separator =>
    if separator.size = 0 then none
    else some (if fromEnd then cutFromEnd separator n s else Bytes.cut separator s n)
  | _ => none

def newline : Bytes := Bytes.ofList [0x0A]

/-- The lines of a string, with their ends if wanted. -/
def linesOf (keepEnds : Bool) (s : Bytes) : List Bytes :=
  let parts := Bytes.cut newline s s.size
  let ended := parts.dropLast.map fun l => if keepEnds then l ++ newline else l
  match parts.getLast? with
  | some last => if last.size = 0 then ended else ended ++ [last]
  | none => ended

/-- The three parts around a separator. -/
def parted? (fromEnd : Bool) (separator s : Bytes) : Option Value :=
  if separator.size = 0 then none
  else
    match if fromEnd then Bytes.last? separator s else Bytes.first? separator s with
    | some i =>
      some (.tuple [.string (s.part 0 i), .string separator,
        .string (s.part (i + separator.size) s.size)])
    | none =>
      some (.tuple (if fromEnd then [.string .empty, .string .empty, .string s]
        else [.string s, .string .empty, .string .empty]))

/-! ## Changing -/

/-- Replaces occurrences of a string, at most `limit` of them. The empty string occurs before each
character and at the end. -/
def replaced? (old new s : Bytes) (limit : List Value) : Option Bytes := do
  if old.size = 0 then
    let parts := (Text.ofBytes s.toList).map Glyph.bytes
    let n ← cuts? (parts.length + 1) limit
    let (few, rest) := parts.splitAt n
    let new := new.toList
    some (Bytes.ofList ((few.map (new ++ ·)).flatten ++ (if n > parts.length then new else []) ++
      rest.flatten))
  else
    let n ← cuts? s.size limit
    some (Bytes.join new (Bytes.cut old s n))

/-- Removes the leading glyphs of a string that pass a test. -/
def strippedLeft (test : Glyph → Bool) (t : Text) : Text := t.dropWhile test

def strippedRight (test : Glyph → Bool) (t : Text) : Text := (t.reverse.dropWhile test).reverse

/-- A string after a change of its text. -/
def changed (change : Text → Text) (s : Bytes) : Value :=
  .string (Bytes.ofList (Text.toBytes (change (Text.ofBytes s.toList))))

/-- Which glyphs to remove: the given ones, or blanks if there are none. -/
def stripTest? : List Value → Option (Glyph → Bool)
  | [] => some Glyph.isBlank
  | [.string s] =>
    if s.size = 0 then some Glyph.isBlank
    else
      let unwanted := charsOf s
      some fun g => unwanted.contains g.scalar
  | _ => none

def joined? (separator : Bytes) (members : List Value) : Option Bytes := do
  let parts ← members.mapM fun
    | .string s => some s
    | _ => none
  some (Bytes.join separator parts)

/-- The first character as at the head of a word, the others in lower case. -/
def capitalized : List Char → List Char
  | [] => []
  | c :: rest => titleChar c :: rest.map lowerChar

/-- Every word with a capital; a word starts where no letter with case stands before. `seen` holds
the characters so far, last first. -/
def titled : (casedBefore : Bool) → List Char → (seen : List Char) → List Char
  | _, [], seen => seen.reverse
  | casedBefore, c :: rest, seen =>
    let d := if casedBefore then lowerChar c else titleChar c
    titled (isCased d) rest (d :: seen)

/-! ## Kinds of strings -/

/-- Whether a string is not empty and all its characters pass a test. -/
def allChars (test : Char → Bool) (s : Bytes) : Bool := s.size != 0 && (charsOf s).all test

/-- Whether a string has letters with case and a change of case leaves it as it is. -/
def isFixedBy (change : Text → String) (s : Bytes) : Bool :=
  (charsOf s).any isCased && utf8 (change (Text.ofBytes s.toList)).toList == s.toList

/-- Whether capitals stand at the heads of words only, and small letters behind letters only.
Capitals beyond ASCII that have a title-case form of their own are refused. -/
def isTitled : (casedBefore seen : Bool) → List Char → Bool
  | _, seen, [] => seen
  | casedBefore, seen, c :: rest =>
    if ('A' ≤ c && c ≤ 'Z') || isTitle c then !casedBefore && isTitled true true rest
    else if isSmall c then casedBefore && isTitled true true rest
    else if isCapital c then false
    else isTitled false seen rest

/-! ## Calls -/

/-- A list of strings. -/
def newStrings (parts : List Bytes) : Action Value := newList (parts.map .string).toArray

/-- What a position is as a value, -1 if there is none. -/
def positionValue (start : Nat) : Option Nat → Value
  | some i => .int (start + i : Nat)
  | none => .int (-1)

/-- A method of a string that neither makes a list nor looks at one. -/
def Method.onString? (m : Method) (s : Bytes) (given : List Value) : Option Value :=
  match m, given with
  | .capitalize, [] => some (stringOf (capitalized (charsOf s)))
  | .codepointOrds, [] => some (.view .codepointOrds s)
  | .codepoints, [] => some (.view .codepoints s)
  | .count, .string part :: bounds => do
    let (window, _) ← windowOf? s bounds
    some (.int (occurrences part window))
  | .elemOrds, [] => some (.view .elemOrds s)
  | .elems, [] => some (.view .elems s)
  | .endsWith, v :: bounds => do
    let (window, _) ← windowOf? s bounds
    (anyString? (fun part => Bytes.endsWith part window) v).map .bool
  | .find, .string part :: bounds => do
    let (window, start) ← windowOf? s bounds
    some (positionValue start (Bytes.first? part window))
  | .index, .string part :: bounds => do
    let (window, start) ← windowOf? s bounds
    (Bytes.first? part window).map fun i => positionValue start (some i)
  | .isAlnum, [] => some (.bool (allChars (fun c => isLetter c || isDecimal c) s))
  | .isAlpha, [] => some (.bool (allChars isLetter s))
  | .isDigit, [] => some (.bool (allChars isDecimal s))
  | .isLower, [] => some (.bool (isFixedBy Text.lower s))
  | .isSpace, [] => some (.bool (allChars isBlank s))
  | .isTitle, [] => some (.bool (isTitled false false (charsOf s)))
  | .isUpper, [] => some (.bool (isFixedBy Text.upper s))
  | .lower, [] => some (stringOf (Text.lower (Text.ofBytes s.toList)).toList)
  | .lstrip, given => do
    let test ← stripTest? given
    some (changed (strippedLeft test) s)
  | .partition, [.string separator] => parted? false separator s
  | .removePrefix, [.string part] =>
    some (.string (if Bytes.startsWith part s then s.part part.size s.size else s))
  | .removeSuffix, [.string part] =>
    some (.string (if Bytes.endsWith part s then s.part 0 (s.size - part.size) else s))
  | .replace, .string old :: .string new :: limit => (replaced? old new s limit).map .string
  | .rfind, .string part :: bounds => do
    let (window, start) ← windowOf? s bounds
    some (positionValue start (Bytes.last? part window))
  | .rindex, .string part :: bounds => do
    let (window, start) ← windowOf? s bounds
    (Bytes.last? part window).map fun i => positionValue start (some i)
  | .rpartition, [.string separator] => parted? true separator s
  | .rstrip, given => do
    let test ← stripTest? given
    some (changed (strippedRight test) s)
  | .startsWith, v :: bounds => do
    let (window, _) ← windowOf? s bounds
    (anyString? (fun part => Bytes.startsWith part window) v).map .bool
  | .strip, given => do
    let test ← stripTest? given
    some (changed (fun t => strippedRight test (strippedLeft test t)) s)
  | .title, [] => some (stringOf (titled false (charsOf s) []))
  | .upper, [] => some (stringOf (Text.upper (Text.ofBytes s.toList)).toList)
  | _, _ => none

/-- A method of a string. -/
def Method.onString (m : Method) (s : Bytes) (given : List Value) : Action Value :=
  match m, given with
  | .join, [v] => do
    let items ← itemsOf v
    ofOption ((joined? s items.toList).map .string)
  | .rsplit, given => do newStrings (← ofOption (splitParts? true s given))
  | .split, given => do newStrings (← ofOption (splitParts? false s given))
  | .splitLines, [] => newStrings (linesOf false s)
  | .splitLines, [.bool keepEnds] => newStrings (linesOf keepEnds s)
  | m, given => ofOption (m.onString? s given)

end LittleComputer.Expression
