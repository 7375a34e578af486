import Bourse.Config.Settings
import Bourse.Exchange
/-!
# A server run

The server starts from its settings, opens the exchange on its snapshot file (restoring the
book, or starting empty when the file is missing or unreadable), serves until it is
interrupted, and then saves the book once more. A failed final save ends the run with exit
code 1 and the error; otherwise the exit code is 0.

The snapshot file the run is given lives at `storePath`; when the settings name another
path, the server keeps its book in a separate new file and the given one stays as it was.
-/

namespace Bourse

open Config

/-- How a run ended: whether it served, its exit code, its error line, and the snapshot
file afterwards. -/
structure RunOutcome where
  ready : Bool
  exitCode : Nat
  error : Option String
  file : SnapshotFile

/-- The error line of a failed final save. -/
def StoreError.line : StoreError → String
  | .io e => "Error: Io(" ++ e.record ++ ")"
  | .encoding e => "Error: Json(Error(\"" ++ e.fault.text ++ "\"))"

/-- The exchange a server opens on its snapshot file, with sessions timing out after the
configured number of seconds. -/
def openExchange (settings : Settings) (file : SnapshotFile) : Exchange :=
  Exchange.onFile (Sessions.empty (settings.sessionTimeout * 1000).toUInt64) 0 file

/-- Runs the server on an environment and an optional environment file, with the snapshot
file at `storePath`. -/
def serve (env : Environment) (dotenv : Option String) (storePath : String)
    (file : SnapshotFile) : RunOutcome :=
  let settings := Settings.load env dotenv
  let own := settings.snapshotPath = storePath
  let used : SnapshotFile := if own then file else { place := .fresh, contents := none }
  match (openExchange settings used).persist with
  | .ok e' =>
    { ready := true, exitCode := 0, error := none,
      file := if own then e'.store.getD file else file }
  | .error err => { ready := true, exitCode := 1, error := some err.line, file }

end Bourse
