/-!
# Strings of bytes

The content of strings: comparison, search, cutting and repetition by position. Searches walk
forward or backward over positions and take nothing out of the string but the parts they give.
-/

namespace LittleComputer.Expression

abbrev Bytes := ByteArray

namespace Bytes

def ofList (bytes : List UInt8) : Bytes := bytes.toByteArray

def byteAt (s : Bytes) (i : Nat) : UInt8 := if h : i < s.size then s[i] else 0

/-! ## Comparison -/

/-- Whether `count` bytes of `s` from `i` on are those of `t` from `j` on. -/
def agree (s t : Bytes) : (i j count : Nat) → Bool
  | _, _, 0 => true
  | i, j, count + 1 => byteAt s i == byteAt t j && agree s t (i + 1) (j + 1) count

def equal (s t : Bytes) : Bool := s.size == t.size && agree s t 0 0 s.size

/-- The first difference among `count` bytes from `i` on. -/
def orderFrom (s t : Bytes) : (i count : Nat) → Ordering
  | _, 0 => .eq
  | i, count + 1 =>
    if byteAt s i < byteAt t i then .lt
    else if byteAt t i < byteAt s i then .gt
    else orderFrom s t (i + 1) count

/-- Strings by their first difference, and by their lengths if one starts the other. -/
def order (s t : Bytes) : Ordering :=
  (orderFrom s t 0 (min s.size t.size)).then (compare s.size t.size)

/-! ## Search -/

/-- Whether a string occurs at a position of another one. -/
def isAt (part whole : Bytes) (i : Nat) : Bool :=
  i + part.size ≤ whole.size && agree part whole 0 i part.size

def startsWith (part whole : Bytes) : Bool := isAt part whole 0

def endsWith (part whole : Bytes) : Bool :=
  part.size ≤ whole.size && isAt part whole (whole.size - part.size)

/-- The first occurrence at a position from `i` to `i + left`. -/
def firstFrom? (part whole : Bytes) : (left i : Nat) → Option Nat
  | 0, i => if isAt part whole i then some i else none
  | left + 1, i => if isAt part whole i then some i else firstFrom? part whole left (i + 1)

/-- The first occurrence at `i` or behind it. -/
def firstAfter? (part whole : Bytes) (i : Nat) : Option Nat :=
  if i + part.size ≤ whole.size then firstFrom? part whole (whole.size - part.size - i) i
  else none

def first? (part whole : Bytes) : Option Nat := firstAfter? part whole 0

/-- The last occurrence at a position up to `i`. -/
def lastBefore? (part whole : Bytes) : (i : Nat) → Option Nat
  | 0 => if isAt part whole 0 then some 0 else none
  | i + 1 => if isAt part whole (i + 1) then some (i + 1) else lastBefore? part whole i

def last? (part whole : Bytes) : Option Nat :=
  if part.size ≤ whole.size then lastBefore? part whole (whole.size - part.size) else none

/-! ## Parts -/

/-- The part from `start` up to `stop`. -/
def part (s : Bytes) (start stop : Nat) : Bytes := s.extract start stop

/-- Cuts what stands behind `start` at each occurrence of a separator, at most `left` times. -/
def cutFrom (separator whole : Bytes) : (left start : Nat) → (seen : List Bytes) → List Bytes
  | 0, start, seen => (whole.part start whole.size :: seen).reverse
  | left + 1, start, seen =>
    match firstAfter? separator whole start with
    | some i => cutFrom separator whole left (i + separator.size) (whole.part start i :: seen)
    | none => (whole.part start whole.size :: seen).reverse

/-- Cuts a string at each occurrence of a separator that is not empty, at most `limit` times. -/
def cut (separator whole : Bytes) (limit : Nat) : List Bytes :=
  cutFrom separator whole (min limit whole.size) 0 []

/-- Strings one after the other with a separator between them. -/
def join (separator : Bytes) (parts : List Bytes) : Bytes :=
  (parts.intersperse separator).foldl (· ++ ·) .empty

/-- The bytes at the positions `start`, `start + step` and so on. -/
def pick (s : Bytes) (start step : Int) (count : Nat) : Bytes :=
  if step = 1 then s.part start.toNat (start.toNat + count)
  else
    (List.range count).foldl (fun t (i : Nat) => t.push (s.byteAt (start + step * i).toNat)) .empty

/-! ## Repetition -/

/-- A string `n` times, for an `n` of at most `bits` bits. -/
def repeatedFrom (s : Bytes) : (bits n : Nat) → Bytes
  | 0, _ => .empty
  | bits + 1, n =>
    let half := repeatedFrom s bits (n / 2)
    if n % 2 = 1 then half ++ half ++ s else half ++ half

def repeated (s : Bytes) (n : Nat) : Bytes := repeatedFrom s (n.log2 + 1) n

end Bytes

end LittleComputer.Expression
