import FilterLang.Check
import FilterLang.Text.Numeral

/-!
# Options and their settings

An option is a flag, or a parameter with a value. Settings collect what the
options of one level of arguments say; every option stands at most once on a
level.
-/

namespace FilterLang
namespace CommandLine

/-- Options that take no value. -/
inductive Flag
  | verbose
  | version
  | syntaxOnly
  deriving DecidableEq

/-- Options that take a value. -/
inductive Parameter
  | maxDepth
  | format
  deriving DecidableEq

/-- The options of the program and its commands. -/
inductive Opt
  | flag (flag : Flag)
  | parameter (parameter : Parameter)
  deriving DecidableEq

namespace Opt

/-- The name of an option behind two hyphens. -/
def longName : Opt → String
  | flag .verbose => "verbose"
  | flag .version => "version"
  | flag .syntaxOnly => "syntax-only"
  | parameter .maxDepth => "max-depth"
  | parameter .format => "format"

/-- The letter of an option behind one hyphen, if it has one. -/
def letter? : Opt → Option Char
  | flag .verbose => some 'v'
  | flag .version => some 'V'
  | flag .syntaxOnly => none
  | parameter .maxDepth => none
  | parameter .format => some 'f'

end Opt

/-- Why arguments cannot be understood. -/
inductive UsageError
  /-- No option of this level is written so. -/
  | unknownOption (argument : String)
  /-- An option that takes a value has none. -/
  | missingValue (parameter : Parameter)
  /-- An option that takes no value has one. -/
  | unexpectedValue (flag : Flag)
  /-- An option is given twice on one level. -/
  | repeated (opt : Opt)
  /-- The value of an option or variable is no number in range. -/
  | invalidNumber (value : String)
  /-- The value of an option is no output format. -/
  | invalidFormat (error : UnknownFormat)
  /-- No command has this name. -/
  | unknownCommand (name : String)
  /-- There is no command. -/
  | missingCommand
  /-- A command has a second expression. -/
  | extraArgument (argument : String)
  deriving DecidableEq

/-- The text of a usage error. -/
def UsageError.message : UsageError → String
  | unknownOption argument => "unexpected argument '" ++ argument ++ "'"
  | missingValue parameter =>
      "a value is required for '--" ++ (Opt.parameter parameter).longName ++ "'"
  | unexpectedValue flag =>
      "'--" ++ (Opt.flag flag).longName ++ "' takes no value"
  | repeated opt => "'--" ++ opt.longName ++ "' is given more than once"
  | invalidNumber value => "invalid number '" ++ value ++ "'"
  | invalidFormat error => error.message
  | unknownCommand name => "unknown command '" ++ name ++ "'"
  | missingCommand => "a command is required: check or tokens"
  | extraArgument argument => "unexpected argument '" ++ argument ++ "'"

/-- The reasons to stop reading arguments. -/
inductive Halt
  /-- The version is asked for. -/
  | version
  /-- The arguments cannot be understood. -/
  | usage (error : UsageError)
  deriving DecidableEq

/-- What the options of one level say. -/
structure Settings where
  /-- Whether the log is asked for. -/
  verbose : Bool
  /-- The limit on nesting and depth. -/
  maxDepth : Option Nat
  /-- The output format. -/
  format : Option OutputFormat
  /-- Whether printing is left out. -/
  syntaxOnly : Bool
  deriving DecidableEq

/-- No option has been given. -/
def Settings.empty : Settings :=
  ⟨false, none, none, false⟩

/-- A number is written in decimal digits, with at most one plus sign, and fits
into sixty-four bits. -/
def readNumber (text : String) : Except UsageError Nat :=
  match Numeral.unsigned? 10 text.toList with
  | none => .error (.invalidNumber text)
  | some number =>
      if number < UInt64.size then .ok number else .error (.invalidNumber text)

namespace Settings

/-- Give an option that takes no value. -/
def switch
    (settings : Settings) : Flag → Except Halt Settings
  | .version => .error .version
  | .verbose =>
      if settings.verbose then
        .error (.usage (.repeated (.flag .verbose)))
      else
        .ok { settings with verbose := true }
  | .syntaxOnly =>
      if settings.syntaxOnly then
        .error (.usage (.repeated (.flag .syntaxOnly)))
      else
        .ok { settings with syntaxOnly := true }

/-- Give an option with its value. -/
def assign
    (settings : Settings)
    (value : String) : Parameter → Except Halt Settings
  | .maxDepth =>
      if settings.maxDepth.isSome then
        .error (.usage (.repeated (.parameter .maxDepth)))
      else
        match readNumber value with
        | .error error => .error (.usage error)
        | .ok number => .ok { settings with maxDepth := some number }
  | .format =>
      if settings.format.isSome then
        .error (.usage (.repeated (.parameter .format)))
      else
        match OutputFormat.ofText value with
        | .error error => .error (.usage (.invalidFormat error))
        | .ok format => .ok { settings with format := some format }

end Settings

end CommandLine
end FilterLang
