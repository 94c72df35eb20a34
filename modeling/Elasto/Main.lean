import Elasto.Cli

/-! # The `elasto` program

Reads the command line and the behaviour file it names, and prints what the command gives;
an error is printed on the error stream with exit code 1. -/

namespace Elasto.Cli

/-- Prints a command's text, or its error on the error stream. -/
def report (r : Except String String) : IO UInt32 := do
  match r with
  | .ok text =>
    IO.print text
    pure 0
  | .error msg =>
    IO.eprintln ("Error: " ++ msg)
    pure 1

end Elasto.Cli

open Elasto.Cli

def main (args : List String) : IO UInt32 := do
  match parseArgs args with
  | .error msg =>
    IO.eprintln msg
    pure 2
  | .ok (.options brick format alreadyConfigured) =>
    report (optionsText brick format alreadyConfigured)
  | .ok (.generate path) =>
    try report (generateText path (← IO.FS.readFile path))
    catch e => report (.error (toString e))
  | .ok (.jacobian path equation target placeholder numerical) =>
    try report (jacobianText path (← IO.FS.readFile path) equation target placeholder numerical)
    catch e => report (.error (toString e))
