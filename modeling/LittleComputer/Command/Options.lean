import LittleComputer.Command.Definition

/-!
# Command line options

Flags stand before the input file, each behind one or two dashes. A flag with a value has it behind
an equals sign or in the next argument; a switch is on unless a value says otherwise. `--` ends the
flags, and so does the first argument that is none.
-/

namespace LittleComputer.Command

structure Options where
  /-- The settings of the assembler, with the definitions given so far. -/
  assembler : Assembler := {}
  /-- The object file to write, if it is not the usual one. -/
  output : Text := []
  dump : Bool := false
  language : Text := []

inductive OptionFault where
  | malformed (argument : Text)
  | unknown (name : Text)
  | missingValue (name : Text)
  | invalidSwitch (name value : Text)
  | invalidDefinition (value : Text) (fault : DefinitionFault)
  /-- The usage was asked for. -/
  | help
deriving DecidableEq, Repr

def OptionFault.message? : OptionFault → Option Text
  | .malformed a => some (("bad flag syntax: " : Text) ++ a)
  | .unknown n => some (("flag provided but not defined: -" : Text) ++ n)
  | .missingValue n => some (("flag needs an argument: -" : Text) ++ n)
  | .invalidSwitch n v =>
    some (("invalid boolean value " : Text) ++ v.quoted ++ (" for -" : Text) ++ n ++
      (": parse error" : Text))
  | .invalidDefinition v f =>
    some (("invalid value " : Text) ++ v.quoted ++ (" for flag -D: " : Text) ++ f.message)
  | .help => none

def usage : Text :=
  Text.ofString <| "Usage of lc3bas:\n" ++
    "  -D value\n    \tPredefine a symbol as NAME=ADDR (hex address)\n" ++
    "  -dump\n    \tDump the assembled program to stderr\n" ++
    "  -implicit\n    \tAllow labels without a trailing ':'\n" ++
    "  -lang string\n    \tMessage language tag\n" ++
    "  -o string\n    \tObject file to write (default: input with .obj suffix)\n" ++
    "  -v\tVerbose mode\n"

/-- The flags. -/
inductive Flag where
  | define | dump | implicit | language | output | verbose
deriving DecidableEq, Repr

def Flag.ofName? (name : Text) : Option Flag :=
  [(("D" : Text), Flag.define), ("dump", .dump), ("implicit", .implicit), ("lang", .language),
   ("o", .output), ("v", .verbose)].lookup name

/-- Whether the flag is a switch, which needs no value. -/
def Flag.isSwitch : Flag → Bool
  | .dump | .implicit | .verbose => true
  | _ => false

/-- The value of a switch. -/
def switchValue? (t : Text) : Option Bool :=
  if ["1", "t", "T", "true", "TRUE", "True"].any fun s => Text.ofString s == t then some true
  else if ["0", "f", "F", "false", "FALSE", "False"].any fun s =>
    Text.ofString s == t then some false
  else none

/-- Name and value of a flag without its dashes. The name has at least one character, also if that
is an equals sign. -/
def splitValue : Text → Text × Option Text
  | [] => ([], none)
  | g :: rest =>
    match splitEquals? rest with
    | some (name, value) => (g :: name, some value)
    | none => (g :: rest, none)

/-- What an argument is. -/
inductive Argument where
  | flag (body : Text)
  /-- The end of the flags, marked by `--`. -/
  | stop
  | plain

/-- Takes the dashes off a flag. A dash alone is none. -/
def Argument.ofText : Text → Argument
  | [.char '-', .char '-'] => .stop
  | .char '-' :: .char '-' :: rest => .flag rest
  | .char '-' :: g :: rest => .flag (g :: rest)
  | _ => .plain

def Options.setSwitch (o : Options) (f : Flag) (on : Bool) : Options :=
  match f with
  | .verbose => { o with assembler := { o.assembler with verbose := on } }
  | .implicit => { o with assembler := { o.assembler with implicitLabels := on } }
  | .dump => { o with dump := on }
  | _ => o

/-- Sets a flag that has a value. -/
def Options.setValue (o : Options) (f : Flag) (value : Text) : Except OptionFault Options :=
  match f with
  | .output => .ok { o with output := value }
  | .language => .ok { o with language := value }
  | .define =>
    match Command.define o.assembler value with
    | (a, none) => .ok { o with assembler := a }
    | (_, some fault) => .error (.invalidDefinition value fault)
  | _ => .ok o

/-- Reads the flags off the front of the arguments. The result holds the arguments that are left. -/
def Options.read (o : Options) : List Text → Except OptionFault (Options × List Text)
  | [] => .ok (o, [])
  | argument :: rest =>
    match Argument.ofText argument with
    | .plain => .ok (o, argument :: rest)
    | .stop => .ok (o, rest)
    | .flag body =>
      if body.isEmpty || body.head? == some (.char '-') || body.head? == some (.char '=') then
        .error (.malformed argument)
      else
        let (name, value) := splitValue body
        match Flag.ofName? name with
        | none =>
          if name == Text.ofString "help" || name == Text.ofString "h" then .error .help
          else .error (.unknown name)
        | some f =>
          if f.isSwitch then
            match value with
            | none => (o.setSwitch f true).read rest
            | some v =>
              match switchValue? v with
              | some on => (o.setSwitch f on).read rest
              | none => .error (.invalidSwitch name v)
          else
            match value, rest with
            | some v, rest =>
              match o.setValue f v with
              | .ok o => o.read rest
              | .error fault => .error fault
            | none, v :: rest =>
              match o.setValue f v with
              | .ok o => o.read rest
              | .error fault => .error fault
            | none, [] => .error (.missingValue name)

end LittleComputer.Command
