import DeskCalculator.CommandLine.Arguments

/-!
What the command says about its own use.
-/

namespace DeskCalculator.CommandLine

def usageLine : Text :=
  Text.ofString "usage: pydc [-h] [-e EXPRESSIONS] [-verbose] [--traceback-json] [files ...]\n"

def helpText : Text :=
  usageLine ++ Text.ofString "
Arbitrary-value stack calculator (dc dialect)

positional arguments:
  files                 Program files, evaluated in order after any
                        expressions

options:
  -h, --help            show this help message and exit
  -e EXPRESSIONS, --expression EXPRESSIONS
                        Evaluate literal program text (may be repeated)
  -verbose, --verbose   Record every step and show the stack in tracebacks
  --traceback-json      Also emit JSON traceback
"

def UsageFault.report (fault : UsageFault) : Text :=
  usageLine ++ Text.ofString "pydc: error: " ++ fault.message ++ [.scalar '\n']

end DeskCalculator.CommandLine
