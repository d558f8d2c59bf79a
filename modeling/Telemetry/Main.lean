/-
The command line: reads the configuration that is named, or the usual one, and tells what it says or
what is wrong with it.
-/
import Telemetry.Agent.Setup

namespace Telemetry

/-- The configuration that is read when none is named. -/
def usualPath : String := "config/agent.toml"

/-- The octets of a file, if it can be read. -/
def contentOf (path : String) : IO (Option (List UInt8)) := do
  try
    return some (← IO.FS.readBinFile path).toList
  catch _ =>
    return none

/-- What is wrong, in words. -/
def Config.Fault.message : Config.Fault → String
  | unreadable path => Config.unreadableMessage path
  | malformed => "TOML parse error"
  | unfit c => c.message
  | senseless n => n.message

/-- What an agent with a configuration says when it starts. -/
def Config.greeting (c : Config) : String :=
  "telemetry agent starting server=" ++ c.address.updatesText ++ " signing=" ++
    (if c.signingKey.isSome then "true" else "false")

end Telemetry

open Telemetry in
def main (args : List String) : IO UInt32 := do
  let path := args.head?.getD usualPath
  match Config.load path (← contentOf path) with
  | .ok c =>
    IO.println c.greeting
    return 0
  | .error fault =>
    IO.eprintln ("Error: " ++ fault.message)
    return 1
