import FilterLang.CommandLine.Settings

/-!
# Command-line arguments

Arguments are read from left to right on two levels: options of the program
before the name of a command, options and the expression of the command behind
it. The depth limit may be given on both levels, and then the later one counts;
where a level does not give it, an environment variable does, whose value must
then be a number.
-/

namespace FilterLang
namespace CommandLine

/-- What an argument is by its looks. -/
inductive Argument
  /-- A command or an expression; a lone hyphen counts as one. -/
  | plain
  /-- Two hyphens, behind which every argument is plain. -/
  | separator
  /-- A name behind two hyphens, with the value behind an equals sign. -/
  | long (name : String) (value : Option String)
  /-- Letters behind one hyphen. -/
  | short (letters : List Char)

/-- The text behind the first equals sign, if there is one. -/
def attachedValue? (text : List Char) : Option String :=
  match text.dropWhile (· != '=') with
  | [] => none
  | _ :: value => some (String.ofList value)

/-- Tell what an argument is. -/
def Argument.ofText (text : String) : Argument :=
  match text.toList with
  | ['-', '-'] => .separator
  | '-' :: '-' :: body =>
      .long (String.ofList (body.takeWhile (· != '='))) (attachedValue? body)
  | '-' :: letter :: letters => .short (letter :: letters)
  | _ => .plain

/-- The text of a value that may have an equals sign in front. -/
def withoutEquals : List Char → List Char
  | '=' :: value => value
  | value => value

/-- The settings after an option, and the option if its value is still to
come. -/
abbrev Progress :=
  Settings × Option Parameter

/-- Read an option given by its name. -/
def readLong
    (allowed : List Opt)
    (settings : Settings)
    (name : String)
    (value : Option String) : Except Halt Progress :=
  match allowed.find? (·.longName = name), value with
  | none, _ => .error (.usage (.unknownOption name))
  | some (.flag flag), none => (settings.switch flag).map (·, none)
  | some (.flag flag), some _ => .error (.usage (.unexpectedValue flag))
  | some (.parameter parameter), none => .ok (settings, some parameter)
  | some (.parameter parameter), some value =>
      (settings.assign value parameter).map (·, none)

/-- Read options given by their letters. What follows the letter of an option
that takes a value is that value. -/
def readLetters
    (allowed : List Opt)
    (settings : Settings) : List Char → Except Halt Progress
  | [] => .ok (settings, none)
  | letter :: letters =>
      match allowed.find? (·.letter? = some letter) with
      | none => .error (.usage (.unknownOption letter.toString))
      | some (.flag flag) => do
          let settings ← settings.switch flag
          readLetters allowed settings letters
      | some (.parameter parameter) =>
          if letters.isEmpty then
            .ok (settings, some parameter)
          else
            let value := String.ofList (withoutEquals letters)
            (settings.assign value parameter).map (·, none)

/-- The options of every level. -/
def commonOptions : List Opt :=
  [.flag .verbose, .parameter .maxDepth]

/-- The options before the name of a command. -/
def programOptions : List Opt :=
  .flag .version :: commonOptions

/-- The commands of the program. -/
inductive CommandName
  | check
  | tokens
  deriving DecidableEq

namespace CommandName

/-- The command of a given name. -/
def ofText? : String → Option CommandName
  | "check" => some check
  | "tokens" => some tokens
  | _ => none

/-- The options of a command. -/
def options : CommandName → List Opt
  | check => .parameter .format :: .flag .syntaxOnly :: commonOptions
  | tokens => commonOptions

end CommandName

/-- Read the arguments behind the name of a command: its options, and at most
one expression. `pending` is an option whose value comes next; after
`separated`, every argument is an expression. -/
def readCommand
    (allowed : List Opt)
    (settings : Settings)
    (expression : Option String)
    (pending : Option Parameter)
    (separated : Bool) :
    List String → Except Halt (Settings × Option String)
  | [] =>
      match pending with
      | some parameter => .error (.usage (.missingValue parameter))
      | none => .ok (settings, expression)
  | text :: rest =>
      let argument := if separated then .plain else Argument.ofText text
      match argument, pending with
      | .plain, some parameter => do
          let settings ← settings.assign text parameter
          readCommand allowed settings expression none separated rest
      | _, some parameter => .error (.usage (.missingValue parameter))
      | .plain, none =>
          if expression.isSome then
            .error (.usage (.extraArgument text))
          else
            readCommand allowed settings (some text) none separated rest
      | .separator, none =>
          readCommand allowed settings expression none true rest
      | .long name value, none => do
          let (settings, next) ← readLong allowed settings name value
          readCommand allowed settings expression next separated rest
      | .short letters, none => do
          let (settings, next) ← readLetters allowed settings letters
          readCommand allowed settings expression next separated rest

/-- What is to be done, and with which limit. -/
structure Invocation where
  /-- The command. -/
  command : CommandName
  /-- The expression, if it is an argument. -/
  expression : Option String
  /-- The output format. -/
  format : OutputFormat
  /-- Whether printing is left out. -/
  syntaxOnly : Bool
  /-- The limit on nesting and depth. -/
  maxDepth : Nat
  deriving DecidableEq

/-- The depth limit of the environment, which is looked at only when a level
lacks the option. -/
def readEnvironment
    (program command : Settings)
    (environment? : Option String) : Except UsageError (Option Nat) :=
  if program.maxDepth.isSome && command.maxDepth.isSome then
    .ok none
  else
    match environment? with
    | none => .ok none
    | some text => (readNumber text).map some

/-- The depth limit: that of the command, of the program, of the environment,
or the usual one. -/
def chooseMaxDepth
    (program command : Settings)
    (environment? : Option String) : Except UsageError Nat := do
  let inherited ← readEnvironment program command environment?
  let given := (command.maxDepth.or program.maxDepth).or inherited
  return given.getD defaultMaxDepth

/-- Join what both levels of arguments say. -/
def invocation
    (program : Settings)
    (environment? : Option String)
    (command : CommandName)
    (arguments : List String) : Except Halt Invocation := do
  let (settings, expression) ←
    readCommand command.options .empty none none false arguments
  let maxDepth ← (chooseMaxDepth program settings environment?).mapError .usage
  return ⟨command, expression, settings.format.getD .canonical,
    settings.syntaxOnly, maxDepth⟩

/-- Read the arguments of the program up to the name of a command, then those
of the command. -/
def readProgram
    (environment? : Option String)
    (settings : Settings)
    (pending : Option Parameter) : List String → Except Halt Invocation
  | [] =>
      match pending with
      | some parameter => .error (.usage (.missingValue parameter))
      | none => .error (.usage .missingCommand)
  | text :: rest =>
      match Argument.ofText text, pending with
      | .plain, some parameter => do
          let settings ← settings.assign text parameter
          readProgram environment? settings none rest
      | _, some parameter => .error (.usage (.missingValue parameter))
      | .plain, none =>
          match CommandName.ofText? text with
          | none => .error (.usage (.unknownCommand text))
          | some command => invocation settings environment? command rest
      | .separator, none => .error (.usage .missingCommand)
      | .long name value, none => do
          let (settings, next) ←
            readLong programOptions settings name value
          readProgram environment? settings next rest
      | .short letters, none => do
          let (settings, next) ←
            readLetters programOptions settings letters
          readProgram environment? settings next rest

/-- Read all arguments, with the value of the environment variable for the
depth limit. -/
def readArguments
    (environment? : Option String)
    (arguments : List String) : Except Halt Invocation :=
  readProgram environment? .empty none arguments

end CommandLine
end FilterLang
