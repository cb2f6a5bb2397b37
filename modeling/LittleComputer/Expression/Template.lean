import LittleComputer.Expression.Written

/-!
# Templates

A string can be a template in two ways. With the operator `%`, a percent sign and a letter take a
value and say how to write it. With the method `format`, a field in braces names the value.
-/

namespace LittleComputer.Expression

/-- Digits in base 8, 10 or 16, with a sign if negative. -/
def signedDigits (base : Nat) (v : Int) : List Char :=
  (if v < 0 then ['-'] else []) ++ Nat.toDigits base v.natAbs

/-- The character of a code point; one that is no scalar value is U+FFFD. -/
def charOf? (v : Int) : Option Char :=
  if 0 ≤ v ∧ v ≤ 0x10FFFF then
    some (if v.toNat.isValidChar then Char.ofNat v.toNat else replacementChar)
  else none

/-! ## Percent signs -/

/-- The text that a conversion letter makes of a value. -/
def convert? (store : Store) (letter : UInt8) (v : Value) : Option (List UInt8) :=
  match Char.ofNat letter.toNat with
  | 's' => some (match v with | .string s => s.toList | v => Text.toBytes (v.written store))
  | 'r' => some (Text.toBytes (v.written store))
  | 'd' => v.toInt?.map fun n => utf8 (signedDigits 10 n)
  | 'i' => v.toInt?.map fun n => utf8 (signedDigits 10 n)
  | 'o' => v.toInt?.map fun n => utf8 (signedDigits 8 n)
  | 'x' => v.toInt?.map fun n => utf8 (signedDigits 16 n)
  | 'X' => v.toInt?.map fun n => utf8 ((signedDigits 16 n).map Char.toUpper)
  | 'c' =>
    match v with
    | .int n => (charOf? n).map fun c => utf8 [c]
    | .string s =>
      match charsOf s with
      | [c] => some (utf8 [c])
      | _ => none
    | _ => none
  | '%' => some [letter]
  | other => do some (utf8 (← Binary64.convert? other (← v.toFloat?)))

/-- Where a template is being read. -/
inductive TemplatePlace where
  | plain
  | percent
  /-- In a key in brackets; its bytes so far, last first. -/
  | key (seen : List UInt8)
  | letter (v : Value)

/-- Fills a template. `given` holds the values taken by position, `count` how many were taken. A
value that is `keyed` by strings need not be used up. -/
def fillFrom? (store : Store) (keyed : Option Dictionary) (given : List Value) :
    TemplatePlace → List UInt8 → (count : Nat) → (seen : List UInt8) → Option (List UInt8)
  | .plain, [], count, seen =>
    if keyed.isSome || count ≥ given.length then some seen.reverse else none
  | .plain, b :: rest, count, seen =>
    if b = 0x25 then fillFrom? store keyed given .percent rest count seen
    else fillFrom? store keyed given .plain rest count (b :: seen)
  | .percent, b :: rest, count, seen =>
    if b = 0x25 then fillFrom? store keyed given .plain rest count (b :: seen)
    else if b = 0x28 then fillFrom? store keyed given (.key []) rest count seen
    else
      match given[count]? with
      | some v =>
        match convert? store b v with
        | some out => fillFrom? store keyed given .plain rest (count + 1) (out.reverse ++ seen)
        | none => none
      | none => none
  | .key k, b :: rest, count, seen =>
    if b = 0x29 then
      match keyed.bind fun d => (Value.string (Bytes.ofList k.reverse)).key?.bind d.get? with
      | some v => fillFrom? store keyed given (.letter v) rest count seen
      | none => none
    else fillFrom? store keyed given (.key (b :: k)) rest count seen
  | .letter v, b :: rest, count, seen =>
    match convert? store b v with
    | some out => fillFrom? store keyed given .plain rest (count + 1) (out.reverse ++ seen)
    | none => none
  | _, [], _, _ => none

/-- A string as a template for a value, or for the items of a tuple. -/
def fill? (store : Store) (template : List UInt8) (v : Value) : Option (List UInt8) :=
  match v with
  | .tuple items => fillFrom? store none items .plain template 0 []
  | .dict cell => fillFrom? store (store.dict? cell) [v] .plain template 0 []
  | v => fillFrom? store none [v] .plain template 0 []

/-! ## Fields in braces -/

/-- How fields have named their values so far: a template does not mix counting with numbers. -/
inductive Numbering where
  | unset
  | counted (next : Nat)
  | numbered
deriving DecidableEq

/-- Cuts a text at the first occurrence of a byte, which is left out. -/
def cutAtByte (b : UInt8) (s : List UInt8) : List UInt8 × Option (List UInt8) :=
  match s.dropWhile (· != b) with
  | [] => (s, none)
  | _ :: rest => (s.takeWhile (· != b), some rest)

/-- The parts of a field: name, conversion and format. -/
def fieldParts (field : List UInt8) : List UInt8 × List UInt8 × List UInt8 :=
  match cutAtByte 0x21 field with
  | (name, some rest) =>
    let (conversion, format) := cutAtByte 0x3A rest
    (name, conversion, format.getD [])
  | (_, none) =>
    let (name, format) := cutAtByte 0x3A field
    (name, [0x73], format.getD [])

/-- The value that a field names, and how fields go on. -/
def fieldValue? (given : List Value) (named : Named) (numbering : Numbering) (name : List UInt8) :
    Option (Value × Numbering) :=
  if name.isEmpty then
    match numbering with
    | .unset => (given[0]?).map (·, .counted 1)
    | .counted n => (given[n]?).map (·, .counted (n + 1))
    | .numbered => none
  else if name.all fun b => 0x30 ≤ b && b ≤ 0x39 then
    match numbering with
    | .counted _ => none
    | _ =>
      let n := name.foldl (fun n b => n * 10 + (b.toNat - 0x30)) 0
      (given[n]?).map (·, .numbered)
  else (named.lookup name).map (·, numbering)

/-- The text of one field, given the bytes between its braces. -/
def fieldText? (store : Store) (given : List Value) (named : Named) (numbering : Numbering)
    (field : List UInt8) : Option (List UInt8 × Numbering) := do
  let (name, conversion, format) := fieldParts field
  let (v, numbering) ← fieldValue? given named numbering name
  if format ≠ [] then none
  else if conversion = [0x73] then
    some ((match v with | .string s => s.toList | v => Text.toBytes (v.written store)), numbering)
  else if conversion = [0x72] then some (Text.toBytes (v.written store), numbering)
  else none

/-- Where a template with fields is being read. -/
inductive FieldPlace where
  | plain
  /-- Behind a closing brace, which must be doubled. -/
  | closed
  /-- Behind an opening brace. -/
  | opened
  /-- In a field; its bytes so far, last first. -/
  | field (seen : List UInt8)

/-- Fills the fields of a template; a doubled brace stands for itself. -/
def formatFrom? (store : Store) (given : List Value) (named : Named) :
    FieldPlace → List UInt8 → Numbering → (seen : List UInt8) → Option (List UInt8)
  | .plain, [], _, seen => some seen.reverse
  | .plain, b :: rest, numbering, seen =>
    if b = 0x7B then formatFrom? store given named .opened rest numbering seen
    else if b = 0x7D then formatFrom? store given named .closed rest numbering seen
    else formatFrom? store given named .plain rest numbering (b :: seen)
  | .closed, b :: rest, numbering, seen =>
    if b = 0x7D then formatFrom? store given named .plain rest numbering (b :: seen) else none
  | .opened, b :: rest, numbering, seen =>
    if b = 0x7B then formatFrom? store given named .plain rest numbering (b :: seen)
    else if b = 0x7D then
      match fieldText? store given named numbering [] with
      | some (out, numbering) =>
        formatFrom? store given named .plain rest numbering (out.reverse ++ seen)
      | none => none
    else formatFrom? store given named (.field [b]) rest numbering seen
  | .field k, b :: rest, numbering, seen =>
    if b = 0x7D then
      match fieldText? store given named numbering k.reverse with
      | some (out, numbering) =>
        formatFrom? store given named .plain rest numbering (out.reverse ++ seen)
      | none => none
    else formatFrom? store given named (.field (b :: k)) rest numbering seen
  | _, [], _, _ => none

/-- A template with its fields filled. -/
def format? (store : Store) (template : List UInt8) (given : List Value) (named : Named) :
    Option (List UInt8) :=
  formatFrom? store given named .plain template .unset []

end LittleComputer.Expression
