import LittleComputer.Object.Image

/-!
# The host of a command

What a command finds where it runs: files and directories by their paths from the root, the
directory that relative names start from, and a stream for what it says. Names may be absolute and
may go through `.` and `..`; there are no links.

A host may refuse to open, read, create or close a file, and it may take only so many bytes of what
is written. The bytes that fit are kept, also if the rest is refused.
-/

namespace LittleComputer.Command

/-- The parts of the way from the root. -/
abbrev Path := List Text

/-- Why the host refuses. -/
inductive FileFault where
  | notFound
  | notDirectory
  | isDirectory
  | other (reason : Text)
deriving DecidableEq, Repr

def FileFault.message : FileFault → Text
  | .notFound => "no such file or directory"
  | .notDirectory => "not a directory"
  | .isDirectory => "is a directory"
  | .other reason => reason

/-- What is done with a file. -/
inductive FileAction where
  | opening | reading | creating | writing | closing
deriving DecidableEq, Repr

/-- A file is created by opening it, and is said to be. -/
def FileAction.verb : FileAction → Text
  | .opening => "open"
  | .reading => "read"
  | .creating => "open"
  | .writing => "write"
  | .closing => "close"

structure FileError where
  action : FileAction
  name : Text
  fault : FileFault
deriving DecidableEq, Repr

def FileError.message (e : FileError) : Text :=
  e.action.verb ++ (" " : Text) ++ e.name ++ (": " : Text) ++ e.fault.message

/-- How much can be written somewhere, and what is said of more. -/
structure Limit where
  bytes : Nat
  fault : FileFault
deriving DecidableEq, Repr

/-- The bytes of a text that are taken, and the fault if others were refused. -/
def Limit.emit (limit : Option Limit) (t : Text) : List UInt8 × Option FileFault :=
  let emission := Emission.ofText (limit.map Limit.bytes) t
  (emission.output, emission.fault.bind fun _ => limit.map Limit.fault)

/-- The parts of a name between slashes. -/
def partsFrom : Text → (part : Text) → (seen : List Text) → List Text
  | [], part, seen => (part.reverse :: seen).reverse
  | g :: rest, part, seen =>
    if g.is '/' then partsFrom rest [] (part.reverse :: seen) else partsFrom rest (g :: part) seen

def parts (name : Text) : List Text := partsFrom name [] []

structure Host where
  files : List (Path × List UInt8)
  /-- Directories, besides those on the way to a file or to the working directory. -/
  directories : List Path := []
  /-- Where relative names start. -/
  working : Path := []
  /-- What the host refuses to do with what stands at a path. -/
  refusal : FileAction → Path → Option FileFault := fun _ _ => none
  /-- How much a file may hold. -/
  room : Path → Option Limit := fun _ => none
  /-- How much the output stream takes. -/
  console : Option Limit := none

/-- What stands at a path. -/
inductive Entry where
  | file (content : List UInt8)
  | directory
  | missing
deriving DecidableEq

namespace Host

/-- Whether a path leads to the working directory, to a directory or to a file. -/
def leads (h : Host) (path : Path) : Bool :=
  path.isPrefixOf h.working || h.directories.any path.isPrefixOf ||
    h.files.any fun (p, _) => path.isPrefixOf p

def entry (h : Host) (path : Path) : Entry :=
  match h.files.lookup path with
  | some content => .file content
  | none => if h.leads path then .directory else .missing

/-- Goes along the parts of a name from a directory; paths are kept last part first. Only the last
part may be missing; an empty part at the end, behind a slash, asks for a directory. -/
def follow (h : Host) : Path → List Text → Except FileFault Path
  | here, [] => .ok here
  | here, part :: rest =>
    if part.isEmpty || part == Text.ofString "." then h.follow here rest
    -- the root is its own parent
    else if part == Text.ofString ".." then h.follow here.tail rest
    else
      match h.entry (part :: here).reverse, rest with
      | .directory, rest => h.follow (part :: here) rest
      | .file _, [] => .ok (part :: here)
      | .file _, _ :: _ => .error .notDirectory
      | .missing, [] => .ok (part :: here)
      | .missing, _ :: _ => .error .notFound

/-- The path that a name leads to. -/
def resolve (h : Host) (name : Text) : Except FileFault Path :=
  match name with
  | [] => .error .notFound
  | .char '/' :: rest => List.reverse <$> h.follow [] (parts rest)
  | name => List.reverse <$> h.follow h.working.reverse (parts name)

/-- The text in a file. -/
def read (h : Host) (name : Text) : Except FileError Text :=
  match h.resolve name with
  | .error fault => .error ⟨.opening, name, fault⟩
  | .ok path =>
    match h.entry path, h.refusal .opening path, h.refusal .reading path with
    | .missing, _, _ => .error ⟨.opening, name, .notFound⟩
    | _, some fault, _ => .error ⟨.opening, name, fault⟩
    | .directory, none, _ => .error ⟨.reading, name, .isDirectory⟩
    | .file _, none, some fault => .error ⟨.reading, name, fault⟩
    | .file content, none, none => .ok (Text.ofBytes content)

/-- The name without the slashes at its end. -/
def dropSlashes (name : Text) : Text := (name.reverse.dropWhile fun g => g.is '/').reverse

/-- The path of a file to be made. A name that ends in a slash is that of a directory, whether there
is one or not. -/
def place (h : Host) (name : Text) : Except FileFault Path :=
  if name.getLast? = some (.char '/') then
    match dropSlashes name with
    | [] => .error .isDirectory
    | shorter => h.resolve shorter >>= fun _ => .error .isDirectory
  else
    match h.resolve name with
    | .error fault => .error fault
    | .ok path => if h.entry path = .directory then .error .isDirectory else .ok path

/-- The host with a file in place of what stood at its path. -/
def replaced (h : Host) (path : Path) (content : List UInt8) : Host :=
  { h with files := (path, content) :: h.files.filter fun (p, _) => p != path }

/-- Makes a file, writes to it and closes it. What stood there is gone once the file is made. -/
def store (h : Host) (name content : Text) : Host × Option FileError :=
  match h.place name with
  | .error fault => (h, some ⟨.creating, name, fault⟩)
  | .ok path =>
    match h.refusal .creating path with
    | some fault => (h, some ⟨.creating, name, fault⟩)
    | none =>
      match Limit.emit (h.room path) content, h.refusal .closing path with
      | (written, some fault), _ => (h.replaced path written, some ⟨.writing, name, fault⟩)
      | (written, none), some fault => (h.replaced path written, some ⟨.closing, name, fault⟩)
      | (written, none), none => (h.replaced path written, none)

end Host

end LittleComputer.Command
