import LittleComputer.Message
import LittleComputer.Mnemonic
import LittleComputer.Text.Blank

/-!
# Faults

Everything that can be wrong with a source, an object file, a reader or a writer, as the cause and
not as its wording. `Fault.message` is the one place that words them. An `Error` is a fault with the
source line where it was found, if it belongs to one.
-/

namespace LittleComputer

/-- A line of source text with its number. Lines that are read are numbered from 1; statements built
by hand may carry any number. -/
structure SourceLine where
  number : Int
  text : Text
deriving DecidableEq, Repr, Inhabited

inductive Fault where
  | unknownInstruction (word : Text)
  | duplicateLabel (name : Text)
  | invalidLabel (word : Text)
  | undefinedLabel (name : Text)
  | invalidRegister (word : Text)
  | invalidImmediate (word : Text)
  /-- The text between `$(` and `)` has no value. -/
  | invalidExpression (body : Text)
  | immediateRange (value least greatest : Int)
  /-- A label is too far away for a branch with that many offset bits. -/
  | offsetRange (offset bits : Int)
  | operandCount (operation : Operation) (want given : Int)
  | missingOperand
  | malformedString
  | misalignedOrigin
  | discontiguousOrigin
  | addressOverflow
  | emptyObject
  | objectTooLong
  | invalidObjectWord (line : Int) (text : Text)
  /-- A line reaches the length limit. -/
  | lineTooLong
  /-- The reader fails after the data it delivers. -/
  | unexpectedEnd
  /-- The writer takes no more bytes. -/
  | writeLimit
  /-- The operand that selects between two forms of an instruction is empty. No source line gives
  such an operand. -/
  | emptyOperand
  /-- The interpreter of expressions breaks down. -/
  | crash (reason : Text)
deriving DecidableEq, Repr

namespace Fault

open Message

def message : Fault → Text
  | .unknownInstruction w => ofTemplate "Unknown instruction '%v'" [.text w]
  | .duplicateLabel n => ofTemplate "Duplicate label '%v'" [.text n]
  | .invalidLabel w => ofTemplate "Invalid label '%v'" [.text w]
  | .undefinedLabel n => ofTemplate "Undefined label '%v'" [.text n]
  | .invalidRegister w => ofTemplate "Invalid register '%v'" [.text w]
  | .invalidImmediate w => ofTemplate "Invalid immediate value '%v'" [.text w]
  | .invalidExpression e => ofTemplate "$(%v) is not a valid expression" [.text e]
  | .immediateRange v lo hi =>
    ofTemplate "Immediate value %v out of range [%v, %v]" [.int v, .int lo, .int hi]
  | .offsetRange o b => ofTemplate "Branch offset %v out of range for PCoffset%v" [.int o, .int b]
  | .operandCount op want given =>
    if want = 1 then ofTemplate "%v requires 1 operand, found %v" [.text op.name, .int given]
    else ofTemplate "%v requires %v operands, found %v" [.text op.name, .int want, .int given]
  | .missingOperand => "missing operand"
  | .malformedString => ".STRINGZ requires a quoted string"
  | .misalignedOrigin => ".ORIG address must be word aligned"
  | .discontiguousOrigin => ".ORIG may not move the address after code or labels"
  | .addressOverflow => "program extends past address 0xFFFF"
  | .emptyObject => "object file is empty"
  | .objectTooLong => "object file is too long to fit in memory"
  | .invalidObjectWord n t => ofTemplate "line %d: '%v' is not a hex word" [.int n, .text t]
  | .lineTooLong => "bufio.Scanner: token too long"
  | .unexpectedEnd => "unexpected EOF"
  | .writeLimit => "write limit"
  | .emptyOperand => "runtime error: index out of range [0] with length 0"
  | .crash reason => reason

/-- Whether the fault is no verdict on the source, but the end of the assembler. -/
def isCrash : Fault → Bool
  | .emptyOperand => true
  | .crash _ => true
  | _ => false

/-- Whether the fault says that an operand is missing: a count below the one wanted does too. -/
def isMissingOperand : Fault → Bool
  | .missingOperand => true
  | .operandCount _ want given => given < want
  | _ => false

end Fault

/-- A fault, and the source line it was found in when there is one. -/
inductive Error where
  | plain (fault : Fault)
  | located (line : SourceLine) (fault : Fault)
deriving DecidableEq, Repr

namespace Error

def fault : Error → Fault
  | .plain f => f
  | .located _ f => f

def line? : Error → Option SourceLine
  | .plain _ => none
  | .located l _ => some l

def message : Error → Text
  | .plain f => f.message
  | .located l f =>
    Message.ofTemplate "line %d '%v' %v" [.int l.number, .text l.text.trim, .text f.message]

end Error

end LittleComputer
