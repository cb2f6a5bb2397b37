import LittleComputer.Expression.Binary64
import LittleComputer.Text.Letter
import LittleComputer.Text.Numeral

/-!
# Tokens of expressions

`Token.ofText?` cuts the text of an expression into tokens, or finds none where a character, a
number or a string cannot be read. Inside brackets a newline is nothing but white space; outside it
ends a statement, and the white space before the next one says how deep that stands: more than
before opens a block, less closes blocks. Blank lines and comments give no token. A NUL character
ends the text.

Scanning functions look at the head of the text and say how many characters behind the first one the
token takes.
-/

namespace LittleComputer.Expression

inductive Token where
  | name (s : String)
  | int (v : Nat)
  /-- The number `digits * 10 ^ exponent`. -/
  | float (digits : Nat) (exponent : Int)
  | string (content : List UInt8)
  | bytes (content : List UInt8)
  | kwAnd | kwOr | kwNot | kwIn | kwIf | kwElse | kwFor | kwLambda
  | kwPass | kwBreak | kwContinue | kwReturn | kwDef | kwElif
  /-- A word that no name may be and that no expression uses. -/
  | reserved
  | leftParen | rightParen | leftBracket | rightBracket | leftBrace | rightBrace
  | comma | colon | semicolon | dot
  | assign
  /-- An operator with an equals sign behind it, such as `+=`. -/
  | update (operator : Token)
  | plus | minus | star | doubleStar | slash | doubleSlash | percent
  | ampersand | bar | caret | tilde | shiftLeft | shiftRight
  | equal | unequal | less | lessEqual | greater | greaterEqual
  | newline
  /-- The start of a block. -/
  | indent
  /-- The end of a block. -/
  | outdent
deriving DecidableEq, Repr

namespace Token

def isDigit (c : Char) : Bool := '0' ≤ c && c ≤ '9'

def isNameStart (c : Char) : Bool := c == '_' || isLetter c

def isNamePart (c : Char) : Bool := isNameStart c || isDigit c

/-- Whether a character is a digit of the base. -/
def isDigitOf (base : Nat) (c : Char) : Bool :=
  match digitValue? c with
  | some d => d < base
  | none => false

/-- The number that a list of digits denotes. -/
def natural (base : Nat) (digits : List Char) : Nat :=
  digits.foldl (fun n c => n * base + (digitValue? c).getD 0) 0

/-- The words that are not names. -/
def keywords : List (String × Token) :=
  [("and", .kwAnd), ("or", .kwOr), ("not", .kwNot), ("in", .kwIn), ("if", .kwIf), ("else", .kwElse),
   ("for", .kwFor), ("lambda", .kwLambda), ("pass", .kwPass), ("break", .kwBreak),
   ("continue", .kwContinue), ("return", .kwReturn), ("def", .kwDef), ("elif", .kwElif)] ++
  ["load", "while", "as", "async", "await", "class", "del", "except", "finally", "from", "global",
   "import", "is", "nonlocal", "raise", "try", "with", "yield"].map (·, .reserved)

def ofWord (word : List Char) : Token :=
  let s := String.ofList word
  (keywords.lookup s).getD (.name s)

/-- An exponent at the head of the text, if there is one: its value and its length. A letter without
digits behind it is refused. -/
def scanExponent : List Char → Option (Int × Nat)
  | e :: rest =>
    if e = 'e' ∨ e = 'E' then
      match rest with
      | s :: more =>
        if s = '+' ∨ s = '-' then
          let digits := more.takeWhile isDigit
          if digits.isEmpty then none
          else some (if s = '-' then -(natural 10 digits : Int) else natural 10 digits,
            digits.length + 2)
        else
          let digits := rest.takeWhile isDigit
          if digits.isEmpty then none else some (natural 10 digits, digits.length + 1)
      | [] => none
    else some (0, 0)
  | [] => some (0, 0)

/-- The token of a decimal number with a point or an exponent; too large a number is refused. -/
def ofDecimal? (digits : Nat) (exponent : Int) : Option Token :=
  if (Binary64.ofDecimal digits exponent).isFinite then some (.float digits exponent) else none

/-- The fraction and exponent behind a point, given the digits before it and the number of
characters that they and the point take. -/
def scanFraction (whole : List Char) (taken : Nat) (rest : List Char) : Option (Token × Nat) := do
  let fraction := rest.takeWhile isDigit
  let (exponent, length) ← scanExponent (rest.dropWhile isDigit)
  let token ← ofDecimal? (natural 10 (whole ++ fraction)) (exponent - fraction.length)
  return (token, taken + fraction.length + length)

/-- A decimal number that starts with the digit `c`. Only zero may be written with leading zeros,
unless a point or an exponent follows. -/
def scanDecimal (c : Char) (tail : List Char) : Option (Token × Nat) :=
  let digits := c :: tail.takeWhile isDigit
  let taken := (tail.takeWhile isDigit).length
  match tail.dropWhile isDigit with
  | '.' :: rest => scanFraction digits (taken + 1) rest
  | rest => do
    let (exponent, length) ← scanExponent rest
    if length > 0 then
      let token ← ofDecimal? (natural 10 digits) exponent
      return (token, taken + length)
    else if c = '0' ∧ natural 10 digits ≠ 0 then none
    else return (.int (natural 10 digits), taken)

/-- The digits behind a base mark, which takes one character. Bases other than sixteen hold only
what fits 63 bits. -/
def scanBased (base : Nat) (rest : List Char) : Option (Token × Nat) :=
  let digits := rest.takeWhile (isDigitOf base)
  let v := natural base digits
  if digits.isEmpty || (base != 16 && v ≥ 0x8000000000000000) then none
  else some (.int v, digits.length + 1)

def scanNumber (c : Char) (tail : List Char) : Option (Token × Nat) :=
  if c = '0' then
    match tail with
    | m :: rest =>
      if m = 'x' ∨ m = 'X' then scanBased 16 rest
      else if m = 'o' ∨ m = 'O' then scanBased 8 rest
      else if m = 'b' ∨ m = 'B' then scanBased 2 rest
      else scanDecimal c tail
    | [] => scanDecimal c tail
  else scanDecimal c tail

/-- The characters of a string up to the quote that ends it, and how many characters that takes. A
backslash protects the character behind it; a newline may not stand by itself. -/
def shortString (quote : Char) : List Char → (seen : List Char) → Option (List Char × Nat)
  | [], _ => none
  | '\\' :: c :: rest, seen => shortString quote rest (c :: '\\' :: seen)
  | c :: rest, seen =>
    if c = quote then some (seen.reverse, seen.length + 1)
    else if c = '\n' ∨ c = '\\' then none
    else shortString quote rest (c :: seen)

/-- The same for a string that three quotes end. `count` quotes stand right before. -/
def longString (quote : Char) : List Char → (count : Nat) → (seen : List Char) →
    Option (List Char × Nat)
  | [], _, _ => none
  | '\\' :: c :: rest, _, seen => longString quote rest 0 (c :: '\\' :: seen)
  | c :: rest, count, seen =>
    if c = quote then
      if count = 2 then some ((seen.drop 2).reverse, seen.length + 1)
      else longString quote rest (count + 1) (c :: seen)
    else if c = '\\' then none
    else longString quote rest 0 (c :: seen)

/-- Takes up to `limit` octal digits: their value behind `value`, and the rest. -/
def octal : (limit : Nat) → (value : Nat) → List Char → Nat × List Char
  | 0, value, rest => (value, rest)
  | _ + 1, value, [] => (value, [])
  | limit + 1, value, c :: rest =>
    if isDigitOf 8 c then octal limit (value * 8 + (digitValue? c).getD 0) rest
      else (value, c :: rest)

/-- The value of exactly `count` hexadecimal digits. -/
def hexadecimal? (count : Nat) (cs : List Char) : Option Nat :=
  let digits := cs.take count
  if digits.length = count ∧ digits.all (isDigitOf 16) then some (natural 16 digits) else none

/-- The character that a one-letter escape stands for. -/
def simpleEscapes : List (Char × Char) :=
  [('a', '\x07'), ('b', '\x08'), ('f', '\x0C'), ('n', '\n'), ('r', '\r'), ('t', '\t'),
    ('v', '\x0B'),
   ('\\', '\\'), ('\'', '\''), ('"', '"')]

/-- One escape, without its backslash: the bytes it stands for and how many characters it takes. In
a character string only the first half of the byte values may be given by number. -/
def scanEscape (isBytes : Bool) : List Char → Option (List UInt8 × Nat)
  | [] => none
  | '\n' :: _ => some ([], 1)
  | 'x' :: rest => do
    let n ← hexadecimal? 2 rest
    if isBytes || n < 128 then return ([n.toUInt8], 3) else none
  | 'u' :: rest => do
    let n ← hexadecimal? 4 rest
    if n.isValidChar then return (String.utf8EncodeChar (Char.ofNat n), 5) else none
  | 'U' :: rest => do
    let n ← hexadecimal? 8 rest
    if n.isValidChar then return (String.utf8EncodeChar (Char.ofNat n), 9) else none
  | c :: rest =>
    match simpleEscapes.lookup c with
    | some d => some (String.utf8EncodeChar d, 1)
    | none =>
      if isDigitOf 8 c then
        let (n, after) := octal 3 0 (c :: rest)
        if n < (if isBytes then 256 else 128) then
          some ([n.toUInt8], (c :: rest).length - after.length)
        else none
      else none

/-- Replaces the escapes of a string; the next `skip` characters are behind us already. -/
def unescape (isBytes : Bool) :
    (skip : Nat) → List Char → (seen : List UInt8) → Option (List UInt8)
  | _, [], seen => some seen.reverse
  | k + 1, _ :: rest, seen => unescape isBytes k rest seen
  | 0, c :: rest, seen =>
    if c = '\\' then
      match scanEscape isBytes rest with
      | some (content, k) => unescape isBytes k rest (content.reverse ++ seen)
      | none => none
    else unescape isBytes 0 rest ((String.utf8EncodeChar c).reverse ++ seen)

/-- A string whose opening quote stands at the head; `taken` characters stand before it. -/
def scanString (isBytes raw : Bool) (taken : Nat) : List Char → Option (Token × Nat)
  | [] => none
  | quote :: rest => do
    let (body, length) ←
      match rest with
      | q₁ :: q₂ :: more =>
        if q₁ = quote ∧ q₂ = quote then
          (longString quote more 0 []).map fun (b, n) => (b, n + 2)
        else shortString quote rest []
      | _ => shortString quote rest []
    let content ←
      if raw then some (body.flatMap String.utf8EncodeChar) else unescape isBytes 0 body []
    return (if isBytes then .bytes content else .string content, taken + length)

def isQuote (c : Char) : Bool := c == '"' || c == '\''

/-- A name, a keyword, or a string with a prefix. -/
def scanWord (c : Char) (tail : List Char) : Option (Token × Nat) :=
  let plain := some (ofWord (c :: tail.takeWhile isNamePart), (tail.takeWhile isNamePart).length)
  match tail with
  | d :: rest =>
    if (c = 'r' ∨ c = 'b') ∧ isQuote d then scanString (c == 'b') (c == 'r') 1 tail
    else if c = 'r' ∧ d = 'b' then
      match rest with
      | q :: _ => if isQuote q then scanString true true 2 rest else plain
      | [] => plain
    else plain
  | [] => plain

/-- An operator that may have an equals sign behind it. -/
def orUpdate (token : Token) : List Char → Token × Nat
  | '=' :: _ => (.update token, 1)
  | _ => (token, 0)

/-- Marks that are neither names nor numbers nor strings. -/
def scanMark : Char → List Char → Option (Token × Nat)
  | '(', _ => some (.leftParen, 0)
  | ')', _ => some (.rightParen, 0)
  | '[', _ => some (.leftBracket, 0)
  | ']', _ => some (.rightBracket, 0)
  | '\x7b', _ => some (.leftBrace, 0)
  | '\x7d', _ => some (.rightBrace, 0)
  | ',', _ => some (.comma, 0)
  | ':', _ => some (.colon, 0)
  | ';', _ => some (.semicolon, 0)
  | '~', _ => some (.tilde, 0)
  | '.', _ => some (.dot, 0)
  | '=', '=' :: _ => some (.equal, 1)
  | '=', _ => some (.assign, 0)
  | '!', '=' :: _ => some (.unequal, 1)
  | '<', '=' :: _ => some (.lessEqual, 1)
  | '<', '<' :: rest => let (t, n) := orUpdate .shiftLeft rest; some (t, n + 1)
  | '<', _ => some (.less, 0)
  | '>', '=' :: _ => some (.greaterEqual, 1)
  | '>', '>' :: rest => let (t, n) := orUpdate .shiftRight rest; some (t, n + 1)
  | '>', _ => some (.greater, 0)
  | '*', '*' :: _ => some (.doubleStar, 1)
  | '*', rest => some (orUpdate .star rest)
  | '/', '/' :: rest => let (t, n) := orUpdate .doubleSlash rest; some (t, n + 1)
  | '/', rest => some (orUpdate .slash rest)
  | '+', rest => some (orUpdate .plus rest)
  | '-', rest => some (orUpdate .minus rest)
  | '%', rest => some (orUpdate .percent rest)
  | '&', rest => some (orUpdate .ampersand rest)
  | '|', rest => some (orUpdate .bar rest)
  | '^', rest => some (orUpdate .caret rest)
  | _, _ => none

/-- The token that starts with `c`, and how many characters of `tail` it takes. -/
def scan (c : Char) (tail : List Char) : Option (Token × Nat) :=
  if isQuote c then scanString false false 0 (c :: tail)
  else if isNameStart c then scanWord c tail
  else if isDigit c then scanNumber c tail
  else
    match c, tail with
    | '.', d :: _ => if isDigit d then scanFraction [] 0 tail else some (.dot, 0)
    | _, _ => scanMark c tail

/-- What stands before the next character on its line. -/
inductive Line where
  /-- White space only: how far it reaches, and how many characters it has. -/
  | blank (column length : Nat)
  /-- A token. -/
  | begun
deriving DecidableEq, Repr

/-- A line behind one more character of white space. A tab adds what its place in the line lacks to
a multiple of eight. -/
def Line.behind (c : Char) : Line → Line
  | .blank column length =>
    .blank (column + if c = '\t' then 8 - length % 8 else 1) (length + 1)
  | .begun => .begun

/-- The blocks that end where a line starts at a column, given the columns of the open blocks,
innermost first: the end tokens and the blocks left. A column between two blocks is refused. -/
def outdents (column : Nat) :
    (levels : List Nat) → (seen : List Token) → Option (List Token × List Nat)
  | [], seen => if column = 0 then some (seen, []) else none
  | level :: outer, seen =>
    if column < level then outdents column outer (.outdent :: seen)
    else if column = level then some (seen, level :: outer)
    else none

/-- The block tokens before a line that starts at a column, and the blocks open behind them. -/
def dents (column : Nat) (levels : List Nat) : Option (List Token × List Nat) :=
  if levels.headD 0 < column then some ([.indent], column :: levels)
  else outdents column levels []

/-- The depth of brackets behind a token; a closing one too many is refused. -/
def depthAfter (depth : Nat) : Token → Option Nat
  | .leftParen | .leftBracket | .leftBrace => some (depth + 1)
  | .rightParen | .rightBracket | .rightBrace => if depth = 0 then none else some (depth - 1)
  | _ => some depth

/-- The block tokens before the next token, and the blocks open behind them. Only the first token of
a line outside brackets can have some. -/
def dentsBefore (depth : Nat) (levels : List Nat) : Line → Option (List Token × List Nat)
  | .blank column _ => if depth = 0 then dents column levels else some ([], levels)
  | .begun => some ([], levels)

/-- The tokens of a text that ends here, given those so far, last first. Open blocks end with it. -/
def finish (levels : List Nat) (line : Line) (seen : List Token) : List Token :=
  let rest := levels.map fun _ => Token.outdent
  if line = .begun ∧ levels ≠ [] then seen.reverse ++ .newline :: rest else seen.reverse ++ rest

/-- Reads tokens behind the next `skip` characters; `levels` holds the columns of the open blocks,
`seen` the tokens so far, last first. -/
def ofCharsFrom :
    (skip depth : Nat) → (levels : List Nat) → Line → (comment : Bool) → List Char →
    (seen : List Token) → Option (List Token)
  | _, _, levels, line, _, [], seen => some (finish levels line seen)
  | k + 1, depth, levels, line, comment, _ :: rest, seen =>
    ofCharsFrom k depth levels line comment rest seen
  | 0, depth, levels, line, comment, c :: rest, seen =>
    if c = '\x00' then some (finish levels line seen)
    else if c = '\n' then
      if depth > 0 ∨ line ≠ .begun then ofCharsFrom 0 depth levels (.blank 0 0) false rest seen
      else ofCharsFrom 0 depth levels (.blank 0 0) false rest (.newline :: seen)
    else if comment then ofCharsFrom 0 depth levels line true rest seen
    else if c = ' ' ∨ c = '\t' then ofCharsFrom 0 depth levels (line.behind c) false rest seen
    else if c = '#' then ofCharsFrom 0 depth levels line true rest seen
    else
      match dentsBefore depth levels line with
      | none => none
      | some (blocks, levels) =>
        if c = '\\' then
          match rest with
          | '\n' :: _ => ofCharsFrom 1 depth levels .begun false rest (blocks ++ seen)
          | _ => none
        else
          match scan c rest with
          | some (token, k) =>
            match depthAfter depth token with
            | some depth => ofCharsFrom k depth levels .begun false rest (token :: blocks ++ seen)
            | none => none
          | none => none

/-- Makes a single newline of a carriage return, with or without a newline behind it. -/
def unifyNewlines : List Char → List Char → List Char
  | [], seen => seen.reverse
  | '\r' :: '\n' :: rest, seen => unifyNewlines rest ('\n' :: seen)
  | c :: rest, seen => unifyNewlines rest ((if c = '\r' then '\n' else c) :: seen)

def ofText? (text : List Char) : Option (List Token) :=
  ofCharsFrom 0 0 [] (.blank 0 0) false (unifyNewlines text []) []

end Token

end LittleComputer.Expression
