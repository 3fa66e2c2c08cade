/-
  The command line: arguments and environment in, one line of JSON out.

  Everything that is decided is decided in `CommandLine`; here files are read, variables are looked
  up and text is printed.
-/
import NegationLint.CommandLine.Run
import NegationLint.Settings.Environment

namespace NegationLint

namespace CommandLine

/-- The text as a string.  Half a surrogate pair has no character and becomes U+FFFD. -/
def toOutput (t : Text) : String :=
  String.ofList (t.map fun c => if c.isSurrogate then '\uFFFD' else Char.ofNat c.val)

/-- How to call the program. -/
def usage : String := "usage: [-h] [--autocorrect] [--sink memory|log] document_path\n"

/-- What is said of a run that ends without an answer. -/
def Failure.message : Failure → String
  | malformed => "The document is not valid JSON.\n"
  | numeralTooLong => "The document holds an integer with too many digits.\n"
  | notAnObject => "The document is not a JSON object.\n"
  | notAssignable => "The document is not a JSON object.\n"
  | decimalOffset => "A location in the document is not written as an integer.\n"

/-- The environment of the process. -/
def environment : IO Environment := do
  let values ← Variable.all.mapM fun x => do
    return (x, (← IO.getEnv (toOutput x.name)).map Text.ofString)
  return fun x => (values.lookup x).join

/-- Run the command line on a document. -/
def execute (arguments : Arguments) : IO UInt32 := do
  let settings := Settings.ofEnvironment (← environment)
  let text ← IO.FS.readFile (toOutput arguments.document)
  match respond settings arguments (baseName arguments.document) (Text.ofString text) with
  | .ok response =>
    IO.eprint (toOutput response.errors)
    IO.print (toOutput response.output)
    return response.status.toUInt32
  | .error failure =>
    IO.eprint failure.message
    return 1

end CommandLine

end NegationLint

open NegationLint in
def main (words : List String) : IO UInt32 := do
  match CommandLine.Arguments.parse (words.map Text.ofString) with
  | .ok arguments => CommandLine.execute arguments
  | .error .help =>
    IO.print CommandLine.usage
    return 0
  | .error .misuse =>
    IO.eprint CommandLine.usage
    return 2
