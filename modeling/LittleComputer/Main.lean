import LittleComputer.Command.Run
import LittleComputer.Expression.Evaluation

/-!
# The program

Connects the command with the arguments, the files and the streams of the system.
-/

namespace LittleComputer.Command

def bytesOf (t : Text) : ByteArray := ⟨t.toBytes.toArray⟩

def textOf (bytes : ByteArray) : Text := Text.ofBytes bytes.toList

/-- The system's code for a path that goes through a file. -/
def notDirectoryCode : UInt32 := 20

/-- Why the system refuses. Some calls report codes with a minus sign. -/
def faultOf : IO.Error → FileFault
  | .noFileOrDirectory .. => .notFound
  | .inappropriateType _ code _ =>
    if code = notDirectoryCode ∨ code = -notDirectoryCode then .notDirectory else .isDirectory
  | e => .other (Text.ofString (toString e))

/-- Writes what the command says and gives its status. -/
def finish (o : Outcome) : IO UInt32 := do
  (← IO.getStderr).write (bytesOf o.errors)
  (← IO.getStdout).write ⟨o.output.toArray⟩
  return o.exit.toUInt32

/-- The status of a command that ends because of a file. -/
def finishWith (log name : Text) (action : FileAction) (e : IO.Error) : IO UInt32 :=
  finish (failure log name (FileError.message ⟨action, name, faultOf e⟩))

/-- Whether a file could be opened, though perhaps not read. -/
def actionOf (e : IO.Error) : FileAction :=
  if faultOf e = .isDirectory then .reading else .opening

/-- A line for each word of a program: address, word, line number and line. -/
def lineByLine (p : Program) : Text :=
  p.cells.flatMap fun c =>
    hexWordText c.address ++ (" " : Text) ++ hexWordText c.word ++ (" " : Text) ++
      (decimal c.line.number).map .char ++ (": " : Text) ++ c.line.text ++ ("\n" : Text)

/-- Writes the object file; gives what was being done if that failed. -/
def writeObject (name : String) (object : Text) : IO (Option (FileAction × IO.Error)) := do
  match ← (IO.FS.Handle.mk name .write).toBaseIO with
  | .error e => return some (.creating, e)
  | .ok handle =>
    match ← (do handle.write (bytesOf object); handle.flush : IO Unit).toBaseIO with
    | .error e => return some (.writing, e)
    | .ok _ => return none

def runFiles (r : Request) (input output : String) : IO UInt32 := do
  match ← (IO.FS.readBinFile input).toBaseIO with
  | .error e => finishWith [] r.input (actionOf e) e
  | .ok source =>
    match r.assemble lineByLine (textOf source) with
    | .error outcome => finish outcome
    | .ok product =>
      match ← writeObject output product.object with
      | some (action, e) => finishWith product.errors r.output action e
      | none =>
        match ← (finish ⟨0, product.report.toBytes, product.errors⟩).toBaseIO with
        | .ok status => return status
        | .error e =>
          let message := FileError.message ⟨.writing, "/dev/stdout", faultOf e⟩
          (← IO.getStderr).write (bytesOf (message ++ ("\n" : Text)))
          return 1

end LittleComputer.Command

open LittleComputer in
def main (arguments : List String) : IO UInt32 := do
  match Command.request (arguments.map Text.ofString) with
  | .error outcome => Command.finish outcome
  | .ok r =>
    Command.runFiles r (String.ofList r.input.scalars) (String.ofList r.output.scalars)
