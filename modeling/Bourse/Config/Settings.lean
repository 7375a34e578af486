import Bourse.Config.Dotenv
import Bourse.Text.Integer
/-!
# Server settings

The server reads its settings from the environment, after loading an environment file
(`loadDotenv`), which never replaces variables already set:

| variable | setting | default |
|---|---|---|
| `CROSS_HOST` | host, as given | `0.0.0.0` |
| `CROSS_PORT` | port (16 bits) | 6957 |
| `CROSS_SESSION_TIMEOUT_SECS` | idle timeout in seconds | 1800 |
| `CROSS_SESSION_SWEEP_SECS` | sweep period in seconds, at least 1 | 60 |
| `CROSS_SNAPSHOT_PATH` | snapshot file, as given | `cross_snapshot.json` |
| `CROSS_SNAPSHOT_INTERVAL_SECS` | snapshot period in seconds, at least 1 | 300 |
| `CROSS_NOTIFY_QUEUE` | notification queue length, at least 1 | 1024 |
| `RUST_LOG` | log filter, as given | `info` |

Numbers are read from the value with blanks trimmed (`readUnsigned`); a value that does not
read leaves the default.
-/

namespace Bourse

namespace Config

/-- The server's settings. -/
structure Settings where
  host : String
  port : Nat
  sessionTimeout : Nat
  sweepEvery : Nat
  snapshotPath : String
  snapshotEvery : Nat
  notifyQueue : Nat
  logLevel : String
  deriving DecidableEq, Repr

/-- The address the server binds: host and port. -/
def Settings.bindAddr (s : Settings) : String := s.host ++ ":" ++ toString s.port

/-- A number below `bound` from a variable, or the default. -/
def numberOr (env : Environment) (name : String) (bound default : Nat) : Nat :=
  match env.get? name with
  | some v =>
    match readUnsigned bound (trimBlanks v) with
    | .ok n => n
    | .error _ => default
  | none => default

/-- The settings an environment gives. -/
def Settings.ofEnvironment (env : Environment) : Settings :=
  { host := (env.get? "CROSS_HOST").getD "0.0.0.0"
    port := numberOr env "CROSS_PORT" (Nat.pow 2 16) 6957
    sessionTimeout := numberOr env "CROSS_SESSION_TIMEOUT_SECS" (Nat.pow 2 64) 1800
    sweepEvery := max 1 (numberOr env "CROSS_SESSION_SWEEP_SECS" (Nat.pow 2 64) 60)
    snapshotPath := (env.get? "CROSS_SNAPSHOT_PATH").getD "cross_snapshot.json"
    snapshotEvery := max 1 (numberOr env "CROSS_SNAPSHOT_INTERVAL_SECS" (Nat.pow 2 64) 300)
    notifyQueue := max 1 (numberOr env "CROSS_NOTIFY_QUEUE" (Nat.pow 2 64) 1024)
    logLevel := (env.get? "RUST_LOG").getD "info" }

/-- The variables the settings read. -/
def settingVariables : List String :=
  ["CROSS_HOST", "CROSS_PORT", "CROSS_SESSION_TIMEOUT_SECS", "CROSS_SESSION_SWEEP_SECS",
   "CROSS_SNAPSHOT_PATH", "CROSS_SNAPSHOT_INTERVAL_SECS", "CROSS_NOTIFY_QUEUE", "RUST_LOG"]

/-- An environment after loading an optional environment file into it. -/
def withDotenv (env : Environment) (dotenv : Option String) : Environment :=
  match dotenv with
  | some text => loadDotenv env text
  | none => env

/-- The settings of an environment and an optional environment file. -/
def Settings.load (env : Environment) (dotenv : Option String) : Settings :=
  Settings.ofEnvironment (withDotenv env dotenv)

/-- Loads the settings again in a process whose environment outlives each load: the settings
variables are cleared, the given variables set, and the environment file loaded into the
process environment. Returns the settings and the process environment afterwards, which
keeps every other variable the file set, so that a later load sees them as already set. -/
def Settings.reload (process given : Environment) (dotenv : Option String) :
    Settings × Environment :=
  let cleared := settingVariables.foldl Environment.unset process
  let env := given.foldl (fun e nv => e.set nv.1 nv.2) cleared
  let after := withDotenv env dotenv
  (Settings.ofEnvironment after, after)

end Config

end Bourse
