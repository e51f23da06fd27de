import DeskCalculator.Text.Digits
import DeskCalculator.Text.Quoted

/-!
The arguments of the command line. An option may be shortened to any start that fits no other. A
value is attached to its option or follows it; file names stand together in one group, and after
`--` everything is a file name. The letters of several options may share one dash.
-/

namespace DeskCalculator.CommandLine

inductive Flag where
  | help
  | expression
  | verbose
  | json
  deriving DecidableEq, Repr

namespace Flag

/-- The ways to write each option. -/
def spellings : List (Text × Flag) :=
  [(Text.ofString "-h", help), (Text.ofString "--help", help),
   (Text.ofString "-e", expression), (Text.ofString "--expression", expression),
   (Text.ofString "-verbose", verbose), (Text.ofString "--verbose", verbose),
   (Text.ofString "--traceback-json", json)]

def ofSpelling? (t : Text) : Option Flag := (spellings.find? (·.1 = t)).map (·.2)

/-- All ways to write an option. -/
def name (flag : Flag) : Text :=
  Text.joined [.scalar '/'] ((spellings.filter (·.2 = flag)).map (·.1))

def takesValue (flag : Flag) : Bool := flag = expression

end Flag

inductive UsageFault where
  | valueMissing (flag : Flag)
  | valueRefused (flag : Flag) (given : Text)
  | ambiguous (argument : Text) (spellings : List Text)
  | unrecognized (arguments : List Text)
  deriving DecidableEq, Repr

def UsageFault.message : UsageFault → Text
  | valueMissing flag =>
    Text.ofString "argument " ++ flag.name ++ Text.ofString ": expected one argument"
  | valueRefused flag given =>
    Text.ofString "argument " ++ flag.name ++ Text.ofString ": ignored explicit argument "
      ++ Text.quoted given
  | ambiguous argument spellings =>
    Text.ofString "ambiguous option: " ++ argument ++ Text.ofString " could match "
      ++ Text.joined (Text.ofString ", ") spellings
  | unrecognized arguments =>
    Text.ofString "unrecognized arguments: " ++ Text.joined [.scalar ' '] arguments

/-- An option as it is used; `long` tells that it is written with two dashes, and `attached` is what
is written onto it, after an equals sign or directly. -/
structure Use where
  flag : Flag
  long : Bool
  attached : Option Text
  deriving DecidableEq, Repr

inductive Item where
  | plain
  | separator
  | option (use : Use)
  | unknown
  deriving DecidableEq, Repr

def isLong (spelling : Text) : Bool := (Text.ofString "--").isPrefixOf spelling

/-- The part of an argument before its first equals sign, and the part after it if there is one. -/
def splitEquals (argument : Text) : Text × Option Text :=
  let before := argument.takeWhile (· != .scalar '=')
  (before, (argument.drop before.length).tail?)

/-- The options that an argument may be a shortened way to write, with the spelling meant. After a
single dash, the letter of an option may have a value attached directly. -/
def candidates (argument : Text) : List (Text × Use) :=
  if isLong argument then
    let (start, value) := splitEquals argument
    (Flag.spellings.filter fun (spelling, _) => start.isPrefixOf spelling).map
      fun (spelling, flag) => (spelling, ⟨flag, true, value⟩)
  else
    Flag.spellings.filterMap fun (spelling, flag) =>
      if spelling = argument.take 2 then
        some (spelling, ⟨flag, false, some (argument.drop 2)⟩)
      else if argument.isPrefixOf spelling then some (spelling, ⟨flag, isLong spelling, none⟩)
      else none

/-- Whether an argument is a dash and a number, which makes it no option. A newline may end it. -/
def isNegativeNumber : Text → Bool
  | .scalar '-' :: rest =>
    let body := if rest.getLast? = some (.scalar '\n') then rest.dropLast else rest
    let whole := body.takeWhile (·.isDecimalDigit)
    match body.dropWhile (·.isDecimalDigit) with
    | [] => !whole.isEmpty
    | .scalar '.' :: fraction => !fraction.isEmpty && fraction.all (·.isDecimalDigit)
    | _ => false
  | _ => false

/-- What an argument is when no `--` stands before it. -/
def classify (argument : Text) : Except UsageFault Item :=
  if argument.head? ≠ some (.scalar '-') then .ok .plain
  else
    match Flag.ofSpelling? argument with
    | some flag => .ok (.option ⟨flag, isLong argument, none⟩)
    | none =>
      if argument.length = 1 then .ok .plain
      else
        let (start, value) := splitEquals argument
        match Flag.ofSpelling? start, value with
        | some flag, some text => .ok (.option ⟨flag, isLong start, some text⟩)
        | _, _ =>
          match candidates argument with
          | [(_, use)] => .ok (.option use)
          | [] =>
            if isNegativeNumber argument || argument.contains (.scalar ' ') then .ok .plain
            else .ok .unknown
          | several => .error (.ambiguous argument (several.map (·.1)))

def separator : Text := Text.ofString "--"

def classifyAll : List Text → Except UsageFault (List (Text × Item))
  | [] => .ok []
  | argument :: rest =>
    if argument = separator then
      .ok ((argument, .separator) :: rest.map fun argument => (argument, .plain))
    else do
      let item ← classify argument
      return (argument, item) :: (← classifyAll rest)

/-- What an argument with options in it comes to: nothing more, a value for an option, an option
that waits for its value, or a fault. -/
inductive Rest where
  | nothing
  | value (text : Text)
  | awaited (flag : Flag)
  | refused (fault : UsageFault)
  deriving DecidableEq, Repr

/-- An option with nothing attached. -/
def expandBare (flag : Flag) : List Flag × Rest :=
  if flag.takesValue then ([], .awaited flag) else ([flag], .nothing)

/-- An attached value. The separator is no value, and leaves the value empty. -/
def valueOf (text : Text) : Text := if text = separator then [] else text

/-- An option with a text attached. When it takes no value and has one dash, the text begins with
the letter of another option, which in turn has the rest attached. -/
def expandAttached (flag : Flag) (long : Bool) : Text → List Flag × Rest
  | [] => if flag.takesValue then ([], .value []) else ([], .refused (.valueRefused flag []))
  | letter :: more =>
    if flag.takesValue then ([], .value (valueOf (letter :: more)))
    else if long then ([], .refused (.valueRefused flag (letter :: more)))
    else
      match Flag.ofSpelling? [.scalar '-', letter] with
      | none => ([], .refused (.valueRefused flag (letter :: more)))
      | some inner =>
        let (flags, rest) :=
          if more.isEmpty then expandBare inner else expandAttached inner false more
        (flag :: flags, rest)

/-- The options in one argument. -/
def Use.expand (use : Use) : List Flag × Rest :=
  match use.attached with
  | none => expandBare use.flag
  | some text => expandAttached use.flag use.long text

structure Options where
  expressions : List Text := []
  files : List Text := []
  verbose : Bool := false
  json : Bool := false
  deriving DecidableEq, Repr

/-- Whether the one group of file names is still to come, being read, or over. -/
inductive Group where
  | ahead
  | reading
  | over
  deriving DecidableEq, Repr

structure Reading where
  options : Options := {}
  group : Group := .ahead
  unrecognized : List Text := []
  deriving DecidableEq, Repr

/-- Why there are no options: help was asked for, or the arguments are at fault. -/
inductive Refusal where
  | help
  | usage (fault : UsageFault)
  deriving DecidableEq, Repr

namespace Reading

def file (r : Reading) (argument : Text) : Reading :=
  match r.group with
  | .over => { r with unrecognized := r.unrecognized ++ [argument] }
  | _ => { r with group := .reading, options.files := r.options.files ++ [argument] }

/-- The separator opens the group of file names like a file name. -/
def separate (r : Reading) : Reading :=
  match r.group with
  | .over => { r with unrecognized := r.unrecognized ++ [separator] }
  | _ => { r with group := .reading }

/-- An option ends the group of file names. -/
def closeGroup (r : Reading) : Reading :=
  if r.group = .reading then { r with group := .over } else r

def stray (r : Reading) (text : Text) : Reading :=
  { r with unrecognized := r.unrecognized ++ [text] }

def express (r : Reading) (text : Text) : Reading :=
  { r with options.expressions := r.options.expressions ++ [text] }

def switchOn (r : Reading) : Flag → Except Refusal Reading
  | .help => .error .help
  | .verbose => .ok { r with options.verbose := true }
  | .json => .ok { r with options.json := true }
  | .expression => .ok r

def readItems : Reading → List (Text × Item) → Except Refusal Reading
  | r, [] => .ok r
  | r, (argument, .plain) :: items => readItems (r.file argument) items
  | r, (_, .separator) :: items => readItems r.separate items
  | r, (argument, .unknown) :: items => readItems (r.closeGroup.stray argument) items
  | r, (_, .option use) :: items =>
    match use.expand, items with
    | (_, .refused fault), _ => .error (.usage fault)
    | (flags, .awaited _), (text, .plain) :: items => do
      readItems ((← flags.foldlM switchOn r.closeGroup).express text) items
    | (_, .awaited flag), _ => .error (.usage (.valueMissing flag))
    | (flags, .value text), items => do
      readItems ((← flags.foldlM switchOn r.closeGroup).express text) items
    | (flags, .nothing), items => do
      readItems (← flags.foldlM switchOn r.closeGroup) items
termination_by _ items => items.length

end Reading

/-- The options that the arguments give. -/
def Options.ofArguments (arguments : List Text) : Except Refusal Options := do
  let items ← (classifyAll arguments).mapError .usage
  let r ← Reading.readItems {} items
  if r.unrecognized.isEmpty then return r.options
  else throw (.usage (.unrecognized r.unrecognized))

end DeskCalculator.CommandLine
