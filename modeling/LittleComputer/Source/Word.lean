import LittleComputer.Source.Quoting
import LittleComputer.Text.Blank

/-!
# Words

Commas and white space separate words, except inside strings and inside parentheses, so that a
string or an expression is one word whatever it holds. Words are rebuilt from characters: a stray
byte becomes U+FFFD.
-/

namespace LittleComputer

/-- The state of a scan for words. The word being read and the words found are kept last first. -/
structure WordScan where
  quoting : Quoting
  depth : Nat
  word : Text
  words : List Text

namespace WordScan

def start : WordScan := ⟨.outside, 0, [], []⟩

/-- Ends the word being read, if there is one. -/
def flush (s : WordScan) : WordScan :=
  if s.word.isEmpty then s else { s with word := [], words := s.word.reverse :: s.words }

/-- Whether a character at this place separates words. -/
def separates (s : WordScan) (c : Char) : Bool :=
  s.quoting == .outside && s.depth == 0 && (c == ',' || isBlank c)

/-- The depth of parentheses behind a character; a closing one too many is ignored. -/
def depthAfter (s : WordScan) (c : Char) : Nat :=
  if s.quoting = .outside then
    if c = '(' then s.depth + 1 else if c = ')' then s.depth - 1 else s.depth
  else s.depth

def step (s : WordScan) (g : Glyph) : WordScan :=
  let c := g.scalar
  if s.separates c then s.flush
  else
    { quoting := s.quoting.next c
      depth := s.depthAfter c
      word := .char c :: s.word
      words := s.words }

/-- The words found once the text has ended. -/
def finish (s : WordScan) : List Text := s.flush.words.reverse

end WordScan

/-- The words of a text. -/
def Text.words (t : Text) : List Text := (t.foldl WordScan.step WordScan.start).finish

end LittleComputer
