import Bourse.Server
/-!
# The server program

Reads the settings from the process environment and the `.env` file of the working
directory, opens the exchange on the snapshot file (a missing or unreadable file starts an
empty book), reports that it is ready, and runs until its standard input ends, which stands
for the interrupt that stops the server. It then saves the book, pretty, through a temporary
file renamed over the snapshot file, and exits with code 0, or prints the error and exits
with code 1.
-/

open Bourse Bourse.Config

/-- The settings variables of the process environment. -/
def processEnvironment : IO Environment :=
  settingVariables.filterMapM fun name => do
    return (← IO.getEnv name).map fun value => (name, value)

/-- The text of a file, when it can be read. -/
def readIfPresent (path : String) : IO (Option String) := do
  try
    return some (← IO.FS.readFile path)
  catch _ =>
    return none

/-- Reads standard input until it ends. -/
partial def awaitEnd (input : IO.FS.Stream) : IO Unit := do
  let line ← input.getLine
  if line.isEmpty then return
  awaitEnd input

def main : IO UInt32 := do
  let env ← processEnvironment
  let settings := Settings.load env (← readIfPresent ".env")
  let contents ← readIfPresent settings.snapshotPath
  let exchange := openExchange settings { place := .fresh, contents }
  IO.println ("Exchange ready: " ++ toString exchange.book.resting ++ " resting, next order id " ++
    toString exchange.nextId)
  IO.println ("Server running on http://" ++ settings.bindAddr)
  awaitEnd (← IO.getStdin)
  let temp := settings.snapshotPath ++ ".tmp"
  try
    IO.FS.writeFile temp exchange.snapshot.fileText
    IO.FS.rename temp settings.snapshotPath
    return 0
  catch e =>
    IO.eprintln ("Error: " ++ toString e)
    return 1
