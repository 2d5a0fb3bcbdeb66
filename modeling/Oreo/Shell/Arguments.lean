import Oreo.Log

/-!
# Command lines

A command line has two levels. The words before the command are settings that hold for every
command; the words behind it are settings again, and say where the source comes from. A
setting that is given on both levels has the value of the inner one.

An option that takes a value may have it attached (`--name=x`, `-nx`, `-n=x`) or in the next
word, unless that looks like an option. A value in a word of its own is examined late: when
the next option or file comes, or at the end of its level. So of two faults on a command line
it is not always the first that is reported, and the rules here say which one is.
-/

namespace Oreo

/-- Why a command line is not carried out. -/
inductive Refusal where
  /-- Help was asked for. -/
  | help
  /-- The version was asked for. -/
  | version
  /-- There are no arguments at all. -/
  | noArguments
  /-- There are settings but no command. -/
  | missingCommand
  /-- The command is none that is known. -/
  | unknownCommand
  /-- A command has neither a file nor a text to read. -/
  | missingSource
  /-- An option is given twice, or both a file and a text. -/
  | conflict
  /-- An option is not known here, or a word is one too many. -/
  | unknownArgument
  /-- A number is malformed or too large. -/
  | badNumber
  /-- A value is missing, or the name of a file is empty. -/
  | missingValue
  /-- A flag has a value. -/
  | needlessValue
deriving DecidableEq, Repr

/-- The settings that take a value. -/
inductive ValueOption where
  /-- The name shown in diagnostics. -/
  | name
  /-- The limit on nesting. -/
  | maxDepth
  /-- A text to read instead of a file. -/
  | eval
  /-- The file to read, which is given by its place and not by an option. -/
  | file
deriving DecidableEq, Repr

/-- The settings that take no value. -/
inductive Flag where
  /-- Indents the output. -/
  | pretty
  /-- Asks for more detail in the log. -/
  | verbose
  /-- Asks for help. -/
  | help
  /-- Asks for the version. -/
  | version
deriving DecidableEq, Repr

/-- An option as it is found by its name. -/
inductive Switch where
  /-- An option with a value. -/
  | value (option : ValueOption)
  /-- A flag. -/
  | flag (flag : Flag)
deriving DecidableEq, Repr

/-- The two levels of a command line. -/
inductive Level where
  /-- Before the command. -/
  | outer
  /-- Behind the command. -/
  | inner
deriving DecidableEq, Repr

namespace Level

/-- The option with the given long name. -/
def long? (level : Level) : String → Option Switch
  | "name" => some (.value .name)
  | "max-depth" => some (.value .maxDepth)
  | "pretty" => some (.flag .pretty)
  | "verbose" => some (.flag .verbose)
  | "help" => some (.flag .help)
  | "version" => if level = .outer then some (.flag .version) else none
  | "eval" => if level = .inner then some (.value .eval) else none
  | _ => none

/-- The option with the given letter. -/
def short? (level : Level) : Char → Option Switch
  | 'n' => some (.value .name)
  | 'p' => some (.flag .pretty)
  | 'v' => some (.flag .verbose)
  | 'h' => some (.flag .help)
  | 'V' => if level = .outer then some (.flag .version) else none
  | 'e' => if level = .inner then some (.value .eval) else none
  | _ => none

end Level

/-- A word of a command line by its shape. -/
inductive Word where
  /-- Two dashes, behind which no word is an option. -/
  | escape
  /-- An option by its name, with the value behind an equals sign. -/
  | long (name : String) (attached : Option String)
  /-- Options by their letters. -/
  | short (letters : List Char)
  /-- Any other word. -/
  | plain (text : String)
deriving DecidableEq, Repr

/-- The shape of a word. -/
def Word.ofString (word : String) : Word :=
  match word.toList with
  | ['-', '-'] => .escape
  | '-' :: '-' :: letters =>
    let name := String.ofList (letters.takeWhile (· != '='))
    match letters.dropWhile (· != '=') with
    | [] => .long name none
    | _ :: value => .long name (some (String.ofList value))
  | '-' :: letter :: letters => .short (letter :: letters)
  | _ => .plain word

/-- A number of 64 bits in decimal digits, which may have a plus sign. -/
def readDepth? (text : String) : Option Nat :=
  let digits := match text.toList with
    | '+' :: digits => digits
    | digits => digits
  if !digits.isEmpty && digits.all Char.isDigit && digitsValue digits < UInt64.size then
    some (digitsValue digits)
  else none

/-- The settings given on one level. -/
structure Given where
  /-- The name shown in diagnostics. -/
  name : Option String := none
  /-- The limit on nesting. -/
  maxDepth : Option Nat := none
  /-- Whether the output is to be indented. -/
  pretty : Bool := false
  /-- How often more detail was asked for, counted up to 255. -/
  verbose : Nat := 0
  /-- A text to read. -/
  eval : Option String := none
  /-- A file to read. -/
  file : Option String := none
deriving DecidableEq, Repr

namespace Given

/-- Whether nothing is given. -/
def isEmpty (given : Given) : Bool := given == {}

/-- Gives an option its value. It must have none yet. -/
def store (given : Given) (value : String) : ValueOption → Except Refusal Given
  | .name => if given.name.isSome then .error .conflict else .ok { given with name := value }
  | .maxDepth =>
    if given.maxDepth.isSome then .error .conflict
    else
      match readDepth? value with
      | some depth => .ok { given with maxDepth := depth }
      | none => .error .badNumber
  | .eval => if given.eval.isSome then .error .conflict else .ok { given with eval := value }
  | .file => if value = "" then .error .missingValue else .ok { given with file := value }

/-- Raises a flag. -/
def raise (given : Given) : Flag → Except Refusal Given
  | .pretty => if given.pretty then .error .conflict else .ok { given with pretty := true }
  | .verbose => .ok { given with verbose := min 255 (given.verbose + 1) }
  | .help => .error .help
  | .version => .error .version

end Given

/-- An option whose value is not examined yet, or has not come yet. -/
structure Pending where
  /-- The option. -/
  option : ValueOption
  /-- Its value, if it has come. -/
  value : Option String
deriving DecidableEq, Repr

/-- How far one level has been read. -/
structure LevelState where
  /-- The settings so far. -/
  given : Given := {}
  /-- The option that is still to be settled. -/
  pending : Option Pending := none
deriving DecidableEq, Repr

namespace LevelState

/-- Whether an option waits for its value. -/
def isWaiting (state : LevelState) : Bool := state.pending.any (·.value.isNone)

/-- Whether a file has been named. -/
def hasFile (state : LevelState) : Bool :=
  state.given.file.isSome || state.pending.any (·.option == .file)

/-- The settings once the pending option is settled. -/
def settle (state : LevelState) : Except Refusal Given :=
  match state.pending with
  | none => .ok state.given
  | some ⟨_, none⟩ => .error .missingValue
  | some ⟨option, some value⟩ => state.given.store value option

/-- Reads a flag. -/
def raise (state : LevelState) (flag : Flag) : Except Refusal LevelState := do
  return { given := ← (← state.settle).raise flag }

/-- Reads an option with a value, which is attached or still to come. -/
def begin (state : LevelState) (option : ValueOption) (attached : Option String) :
    Except Refusal LevelState := do
  let given ← state.settle
  match attached with
  | some value => return { given := ← given.store value option }
  | none => return { given, pending := some ⟨option, none⟩ }

/-- Reads an option by its long name. -/
def long (level : Level) (state : LevelState) (name : String) (attached : Option String) :
    Except Refusal LevelState :=
  match level.long? name, attached with
  | none, _ => .error .unknownArgument
  | some (.value option), _ => state.begin option attached
  | some (.flag flag), none => state.raise flag
  | some (.flag _), some _ => .error .needlessValue

/-- The value attached to a letter; an equals sign before it is dropped. -/
def attachedTo : List Char → Option String
  | [] => none
  | '=' :: value => some (String.ofList value)
  | value => some (String.ofList value)

/-- Reads options by their letters. The first with a value takes the letters behind it. -/
def short (level : Level) (state : LevelState) : List Char → Except Refusal LevelState
  | [] => .ok state
  | letter :: letters =>
    match level.short? letter with
    | none => .error .unknownArgument
    | some (.value option) => state.begin option (attachedTo letters)
    | some (.flag flag) => do
      let state ← state.raise flag
      state.short level letters

/-- Reads the value of the option that waits for it. -/
def supply (state : LevelState) (text : String) : LevelState :=
  { state with pending := state.pending.map fun waiting => { waiting with value := text } }

/-- Reads the name of a file, of which there can be one. -/
def name (state : LevelState) (text : String) : Except Refusal LevelState :=
  if state.hasFile then .error .unknownArgument
  else do return { given := ← state.settle, pending := some ⟨.file, some text⟩ }

end LevelState

/-- The words behind a command. -/
def readInner (state : LevelState) : List String → Except Refusal Given
  | [] => state.settle
  | word :: words => do
    match Word.ofString word with
    | .escape => (← words.foldlM LevelState.name state).settle
    | .long name attached => readInner (← state.long .inner name attached) words
    | .short letters => readInner (← state.short .inner letters) words
    | .plain text =>
      if state.isWaiting then readInner (state.supply text) words
      else readInner (← state.name text) words

/-- The settings behind a command: they name either a file or a text. -/
def readCommand (words : List String) : Except Refusal Given := do
  let given ← readInner {} words
  match given.file, given.eval with
  | some _, some _ => .error .conflict
  | none, none => .error .missingSource
  | _, _ => return given

/-- The word for each stage on the command line. -/
def Stage.name : Stage → String
  | .tokens => "tokens"
  | .program => "parse"

/-- The stage that a word asks for. -/
def Stage.ofName? (word : String) : Option Stage :=
  [Stage.tokens, .program].find? (·.name == word)

/-- Whether a word is a command, among which is the one for help. -/
def isCommand (word : String) : Bool := (Stage.ofName? word).isSome || word == "help"

/-- What the command for help answers: at most one command may follow it. -/
def readHelp : List String → Refusal
  | [] => .help
  | [word] => if isCommand word then .help else .unknownCommand
  | _ => .unknownCommand

/-- A command line that can be carried out. -/
structure Invocation where
  /-- What is made of the source. -/
  stage : Stage
  /-- The file to read. -/
  file : Option String := none
  /-- The text to read, which is preferred to a file. -/
  eval : Option String := none
  /-- The name shown in diagnostics. -/
  name : Option String := none
  /-- The limit on nesting. -/
  maxDepth : Nat := { : Options }.maxDepth
  /-- Whether the output is indented. -/
  pretty : Bool := false
  /-- How often more detail was asked for. -/
  verbose : Nat := 0
deriving DecidableEq, Repr

namespace Invocation

/-- The invocation for the settings of the two levels. -/
def ofGiven (stage : Stage) (outer inner : Given) : Invocation where
  stage := stage
  file := inner.file
  eval := inner.eval
  name := inner.name <|> outer.name
  maxDepth := (inner.maxDepth <|> outer.maxDepth).getD { : Options }.maxDepth
  pretty := inner.pretty || outer.pretty
  verbose := if inner.verbose = 0 then outer.verbose else inner.verbose

/-- What is left of a command line without a command. -/
def withoutCommand (state : LevelState) : Except Refusal Invocation := do
  if (← state.settle).isEmpty then .error .noArguments else .error .missingCommand

/-- The words from some place before the command on. The words behind the command are examined
before an option that is pending. -/
def readOuter (state : LevelState) : List String → Except Refusal Invocation
  | [] => withoutCommand state
  | word :: words => do
    match Word.ofString word with
    | .escape =>
      match words with
      | [] => withoutCommand state
      | next :: _ => .error (if isCommand next then .unknownArgument else .unknownCommand)
    | .long name attached => readOuter (← state.long .outer name attached) words
    | .short letters => readOuter (← state.short .outer letters) words
    | .plain text =>
      if state.isWaiting then readOuter (state.supply text) words
      else
        match Stage.ofName? text with
        | some stage =>
          let inner ← readCommand words
          let outer ← state.settle
          return ofGiven stage outer inner
        | none => .error (if text = "help" then readHelp words else .unknownCommand)

/-- Reads the words of a command line. -/
def ofArguments (words : List String) : Except Refusal Invocation := readOuter {} words

end Invocation

end Oreo
