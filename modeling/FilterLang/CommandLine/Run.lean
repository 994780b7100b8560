import FilterLang.CommandLine.Arguments

/-!
# Running the program

A run reads arguments, takes the expression from the input stream when it is
not an argument, and reports an exit code, what is printed and, on failure, one
line about it.
-/

namespace FilterLang
namespace CommandLine

/-- The environment variable that gives the depth limit. -/
def maxDepthVariable : String :=
  "SIMPLEQUERY_MAX_DEPTH"

/-- The name and version of the program. -/
def versionText : String :=
  "simplequery 0.1.0"

/-- How a run ends. -/
structure Report where
  /-- The exit code: zero, one after a failure, two after a usage error. -/
  code : Nat
  /-- What is printed. -/
  output : String
  /-- What is told about a failure or a usage error. -/
  problem : Option String
  deriving DecidableEq

namespace Report

/-- Lines, each with its end. -/
def unlines (lines : List String) : String :=
  String.join (lines.map (· ++ "\n"))

/-- A run that prints lines. -/
def success (lines : List String) : Report :=
  ⟨0, unlines lines, none⟩

/-- A run that fails. -/
def failure (problem : Failure) : Report :=
  ⟨1, "", some problem.message⟩

/-- A run that ends before there is a command. -/
def halted : Halt → Report
  | .version => success [versionText]
  | .usage error => ⟨2, "", some error.message⟩

end Report

/-- The text of an input stream. -/
def decodeInput (bytes : ByteArray) : Except Failure String :=
  match String.fromUTF8? bytes with
  | some text => .ok text
  | none => .error (.stream "stream did not contain valid UTF-8")

namespace Invocation

/-- The expression of an invocation: its argument, or else all of the input
stream, if there is one. -/
def source
    (invocation : Invocation)
    (input : Option ByteArray) : Except Failure (Option String) :=
  match invocation.expression, input with
  | some text, _ => .ok (some text)
  | none, some bytes => (decodeInput bytes).map some
  | none, none => .ok none

/-- The lines that an invocation prints. -/
def lines
    (invocation : Invocation)
    (source : Option String) : Except Failure (List String) :=
  match invocation.command with
  | .check => do
      let outcome ← Check.run
        ⟨source, invocation.format, invocation.syntaxOnly, invocation.maxDepth⟩
      match outcome with
      | .valid => return ["Syntax is valid"]
      | .printed text => return [text]
  | .tokens =>
      match source with
      | none => .error .noExpression
      | some text => listTokens text

/-- Carry out an invocation. -/
def run
    (invocation : Invocation)
    (input : Option ByteArray) : Report :=
  match invocation.source input >>= invocation.lines with
  | .ok lines => .success lines
  | .error problem => .failure problem

end Invocation

/-- Run the program on its arguments, its environment variable and its input
stream. -/
def run
    (arguments : List String)
    (environment? : Option String)
    (input : Option ByteArray) : Report :=
  match readArguments environment? arguments with
  | .error halt => .halted halt
  | .ok invocation => invocation.run input

end CommandLine
end FilterLang
