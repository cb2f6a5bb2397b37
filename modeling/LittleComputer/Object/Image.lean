import LittleComputer.Program
import LittleComputer.Source.Input

/-!
# Object files

An image is an origin and the words from there on. An object file lists both as text, one word of
four hexadecimal digits a line. The reader is more tolerant than the writer: it takes blank lines,
blanks around a word, fewer digits, either case, and words without `0x`.

What is written goes to a sink, which may take only so many bytes. What fits is written; the fault
says that something was left.
-/

namespace LittleComputer

/-- What a sink received, and whether it refused a part. -/
structure Emission where
  output : List UInt8
  fault : Option Fault
deriving DecidableEq, Repr

/-- Writes a text to a sink that takes at most `limit` bytes. -/
def Emission.ofText (limit : Option Nat) (t : Text) : Emission :=
  let bytes := t.toBytes
  match limit with
  | none => ⟨bytes, none⟩
  | some n => if bytes.length ≤ n then ⟨bytes, none⟩ else ⟨bytes.take n, some .writeLimit⟩

structure Image where
  origin : UInt16
  words : List UInt16
deriving DecidableEq, Repr

namespace Image

def ofProgram (p : Program) : Image := ⟨p.origin, p.words⟩

/-- A line of an object file. -/
def wordLine (w : UInt16) : Text := hexWordText w ++ ("\n" : Text)

/-- The object file of an image. -/
def text (i : Image) : Text := (i.origin :: i.words).flatMap wordLine

/-- Takes `0x` off the front. -/
def dropMark : Text → Text
  | .char '0' :: .char 'x' :: rest => rest
  | .char '0' :: .char 'X' :: rest => rest
  | t => t

/-- A word as a line without blanks around it may write it. -/
def word? (t : Text) : Option UInt16 :=
  match Text.natural? 16 (dropMark t) with
  | some n => if n < 65536 then some (UInt16.ofNat n) else none
  | none => none

/-- The words of lines that start with the given number; `seen` holds those before, last first. -/
def wordsFrom : (number : Nat) → List Text → (seen : List UInt16) → Except Fault (List UInt16)
  | _, [], seen => .ok seen.reverse
  | number, line :: rest, seen =>
    let t := line.trim
    if t.isEmpty then wordsFrom (number + 1) rest seen
    else
      match word? t with
      | some w => wordsFrom (number + 1) rest (w :: seen)
      | none => .error (.invalidObjectWord number t)

/-- Reads an object file. A line that is no word comes before a fault of the input itself. -/
def read (input : Input) : Except Fault Image :=
  let reading := input.read
  match wordsFrom 1 reading.lines [] with
  | .error fault => .error fault
  | .ok words =>
    match reading.fault, words with
    | some fault, _ => .error fault
    | none, [] => .error .emptyObject
    | none, origin :: words => .ok ⟨origin, words⟩

end Image

end LittleComputer
