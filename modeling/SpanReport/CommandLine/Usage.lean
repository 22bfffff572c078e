import SpanReport.CommandLine.Options

/-!
# Usage texts

What the program says about itself.
-/

namespace SpanReport.CommandLine

def usage : String :=
  "usage: prettydiag [-h] [--unicode | --ascii] [--color \x7balways,auto,never\x7d]\n" ++
  "                  [-o FILE] [-v] [--version]\n" ++
  "                  FILE [FILE ...]\n"

def help : String :=
  usage ++
  "\n" ++
  "Render compiler-style diagnostics described in JSON files.\n" ++
  "\n" ++
  "positional arguments:\n" ++
  "  FILE                  JSON diagnostic description(s).\n" ++
  "\n" ++
  "options:\n" ++
  "  -h, --help            show this help message and exit\n" ++
  "  --unicode             Draw with Unicode box characters.\n" ++
  "  --ascii               Draw with plain ASCII characters.\n" ++
  "  --color \x7balways,auto,never\x7d\n" ++
  "                        Colourise the output (default: auto).\n" ++
  "  -o FILE, --output FILE\n" ++
  "                        Output file (\"-\" or omit for stdout).\n" ++
  "  -v, --verbose         Increase log verbosity (-v info, -vv debug).\n" ++
  "  --version             show program's version number and exit\n"

def versionLine : String := "prettydiag 0.1.0\n"

def Misuse.report (m : Misuse) : String := usage ++ "prettydiag: error: " ++ m.message ++ "\n"

end SpanReport.CommandLine
