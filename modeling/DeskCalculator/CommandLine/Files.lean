import DeskCalculator.Text.Utf8

/-!
Files, and why one cannot be read. A tree of files held in memory says what a path leads to: it is
followed name by name, a folder is searched for the next name, and a file has nothing below it.
-/

namespace DeskCalculator.CommandLine

/-- Why a file cannot be read: the number and the wording of the system's error. -/
structure FileFault where
  number : Nat
  reason : Text
  deriving DecidableEq, Repr

namespace FileFault

def missing : FileFault := ⟨2, Text.ofString "No such file or directory"⟩

def denied : FileFault := ⟨13, Text.ofString "Permission denied"⟩

def notDirectory : FileFault := ⟨20, Text.ofString "Not a directory"⟩

def directory : FileFault := ⟨21, Text.ofString "Is a directory"⟩

def nameTooLong : FileFault := ⟨36, Text.ofString "File name too long"⟩

/-- The faults that have a wording of their own. -/
def known : List FileFault := [missing, denied, notDirectory, directory, nameTooLong]

def message (fault : FileFault) : Text :=
  Text.ofString "[Errno " ++ Numeral.decimal fault.number ++ Text.ofString "] " ++ fault.reason

end FileFault

/-- The names in a path. A slash at its start or end has an empty name beside it. -/
def pathNames : Text → List Text
  | [] => [[]]
  | c :: rest =>
    if c = .scalar '/' then [] :: pathNames rest
    else
      match pathNames rest with
      | [] => [[c]]
      | name :: names => (c :: name) :: names

inductive Node where
  | folder
  | file (bytes : List UInt8)
  deriving DecidableEq, Repr

/-- A location by the names that lead to it from the working directory, the innermost first; none is
outside the working directory. -/
abbrev Location := Option (List Text)

def Location.outer : Location → Location
  | some (_ :: names) => some names
  | _ => none

/-- Files and folders below a working directory, each under the names that lead to it. A folder on
the way to another node need not be listed. -/
structure Files where
  nodes : List (List Text × Node) := []
  deriving DecidableEq, Repr

namespace Files

/-- What is at a location. Outside the working directory there are folders only. -/
def node? (files : Files) : Location → Option Node
  | none | some [] => some .folder
  | some (name :: outer) =>
    let names := (name :: outer).reverse
    match files.nodes.find? (·.1 = names) with
    | some (_, node) => some node
    | none => if files.nodes.any (names.isPrefixOf ·.1) then some .folder else none

/-- Where a name leads from a folder. A name has at most 255 bytes. -/
def enter (files : Files) (location : Location) (name : Text) : Except FileFault Location :=
  if name.isEmpty ∨ name = '.' then .ok location
  else if name = Text.ofString ".." then .ok location.outer
  else if 255 < Utf8.size name then .error .nameTooLong
  else
    match location.map (name :: ·) with
    | none => .error .missing
    | some names => if (files.node? (some names)).isSome then .ok (some names) else .error .missing

/-- The bytes of the file that names lead to. -/
def follow (files : Files) (location : Location) : List Text → Except FileFault (List UInt8)
  | [] =>
    match files.node? location with
    | some (.file bytes) => .ok bytes
    | some .folder => .error .directory
    | none => .error .missing
  | name :: names =>
    match files.node? location with
    | some (.file _) => .error .notDirectory
    | some .folder => do files.follow (← files.enter location name) names
    | none => .error .missing

/-- The bytes of the file that a path leads to. A path has fewer than 4096 bytes; one that begins
with a slash starts outside the working directory. -/
def read (files : Files) (path : Text) : Except FileFault (List UInt8) :=
  if path.isEmpty then .error .missing
  else if 4096 ≤ Utf8.size path then .error .nameTooLong
  else files.follow (if path.head? = some '/' then none else some []) (pathNames path)

end Files

end DeskCalculator.CommandLine
