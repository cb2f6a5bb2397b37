import LittleComputer.Command.Host
import LittleComputer.Command.Options
import LittleComputer.Object.Report

/-!
# The command

The command assembles one file: it reads the options, reads the source, assembles it, writes the
object file and reports on its output stream. A step that fails ends it, and nothing is written
before the assembly has succeeded. How a program is dumped is left open.
-/

namespace LittleComputer.Command

/-- How the command ends. -/
structure Outcome where
  exit : UInt8
  output : List UInt8
  errors : Text

/-- The name of the object file: `.obj` in place of `.asm`, or behind any other name. -/
def objectName (input : Text) : Text :=
  let suffix := Text.ofString ".asm"
  (if suffix.isSuffixOf input then input.take (input.length - suffix.length) else input) ++
    Text.ofString ".obj"

/-- A failure that is not one of the options. -/
def failure (log who message : Text) : Outcome :=
  ⟨1, [], log ++ who ++ (": " : Text) ++ message ++ ("\n" : Text)⟩

/-- The end of a command whose assembler crashed. -/
def breakdown (log message : Text) : Outcome :=
  ⟨2, [], log ++ ("panic: " : Text) ++ message ++ ("\n" : Text)⟩

/-- What the arguments ask for. -/
structure Request where
  options : Options
  input : Text
  output : Text

/-- Names separated by blanks. -/
def listed (names : List Text) : Text :=
  ("[" : Text) ++ (names.intersperse (" " : Text)).flatten ++ ("]" : Text)

/-- Reads the arguments, or ends the command. -/
def request (arguments : List Text) : Except Outcome Request :=
  match Options.read {} arguments with
  | .error .help => .error ⟨0, [], usage⟩
  | .error fault =>
    .error ⟨2, [], (fault.message?.getD []) ++ ("\n" : Text) ++ usage⟩
  | .ok (options, [input]) =>
    .ok ⟨options, input, if options.output.isEmpty then objectName input else options.output⟩
  | .ok (_, others) =>
    .error (failure [] "lc3bas" (("Expected one input file, got: " : Text) ++ listed others))

/-- What is left to write once the assembly has succeeded. -/
structure Product where
  object : Text
  report : Text
  errors : Text

/-- Writes the report to the output stream. -/
def Host.publish (h : Host) (p : Product) : Outcome :=
  match Limit.emit h.console p.report with
  | (written, none) => ⟨0, written, p.errors⟩
  | (written, some fault) =>
    ⟨1, written, p.errors ++ FileError.message ⟨.writing, "/dev/stdout", fault⟩ ++
      ("\n" : Text)⟩

variable [Interpreter]

/-- Assembles the source that was asked for, or ends the command. -/
def Request.assemble (r : Request) (dump : Program → Text) (source : Text) :
    Except Outcome Product :=
  let assembled := r.options.assembler.assemble ⟨source, false⟩
  match assembled.result with
  | .error error =>
    if error.fault.isCrash then .error (breakdown assembled.log error.fault.message)
    else .error (failure assembled.log r.input error.message)
  | .ok program =>
    .ok ⟨(Image.ofProgram program).text, Report.text program,
      if r.options.dump then assembled.log ++ dump program else assembled.log⟩

/-- Runs the command on a host. -/
def run (dump : Program → Text) (arguments : List Text) (h : Host) : Outcome × Host :=
  match request arguments with
  | .error outcome => (outcome, h)
  | .ok r =>
    match h.read r.input with
    | .error e => (failure [] r.input e.message, h)
    | .ok source =>
      match r.assemble dump source with
      | .error outcome => (outcome, h)
      | .ok product =>
        match h.store r.output product.object with
        | (after, some e) => (failure product.errors r.output e.message, after)
        | (after, none) => (after.publish product, after)

end LittleComputer.Command
