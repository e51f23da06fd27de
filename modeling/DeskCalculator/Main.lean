import DeskCalculator.CommandLine.Program

/-!
The command line program. It reads what the arguments name, computes the outcome and delivers it.
There is no shell that commands could be given to.
-/

open DeskCalculator CommandLine

/-- All bytes of a stream, after those already read. -/
partial def readStream (stream : IO.FS.Stream) (bytes : ByteArray) : IO ByteArray := do
  let more ← stream.read 65536
  if more.isEmpty then return bytes else readStream stream (bytes ++ more)

def nameString (name : Text) : String :=
  String.ofList <| name.filterMap fun c =>
    match c with
    | .scalar c => some c
    | .surrogate _ => none

/-- The fault of a number that the system gave, which may be negated. -/
def numberedFault (number : UInt32) (reason : String) : FileFault :=
  let n := if number.toNat < 0x80000000 then number.toNat else 0x100000000 - number.toNat
  (FileFault.known.find? (·.number = n)).getD ⟨n, Text.ofString reason⟩

def fileFault : IO.Error → FileFault
  | .noFileOrDirectory .. => .missing
  | .inappropriateType _ number reason | .permissionDenied _ number reason
  | .invalidArgument _ number reason => numberedFault number reason
  | other => ⟨5, Text.ofString (toString other)⟩

def readFile (name : Text) : IO (Text × Except FileFault (List UInt8)) := do
  match ← (IO.FS.readBinFile (nameString name)).toBaseIO with
  | .ok bytes => return (name, .ok bytes.toList)
  | .error failure => return (name, .error (fileFault failure))

/-- The files that the arguments name, and the standard input if they name no program. -/
def readSurroundings (arguments : List Text) : IO Surroundings := do
  let options := (Options.ofArguments arguments).toOption.getD {}
  let files ← options.files.mapM readFile
  let input ←
    if options.files.isEmpty && options.expressions.isEmpty then
      readStream (← IO.getStdin) .empty
    else pure .empty
  return {
    file := fun name => ((files.find? (·.1 = name)).map (·.2)).getD (.error .missing)
    input := input.toList
    shellFault := some (Text.ofString "no shell") }

def main (arguments : List String) : IO UInt32 := do
  let arguments := arguments.map Text.ofString
  match run (← readSurroundings arguments) 0x4000000000000000 arguments with
  | none =>
    (← IO.getStderr).putStrLn "the program does not end"
    return 1
  | some outcome =>
    (← IO.getStdout).putStr (nameString outcome.output)
    (← IO.getStderr).putStr (nameString outcome.errors)
    match outcome.ending with
    | .exit status => return UInt32.ofNat status
    | .broken b =>
      (← IO.getStderr).putStrLn (nameString b.message)
      return 1
