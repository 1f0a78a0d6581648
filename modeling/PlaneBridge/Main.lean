import PlaneBridge.CommandLine.Run

/-!
# The program

Reads the files and the environment that a command line asks for, runs it, and writes what comes of
it.  No transport is at hand here, so that every request fails.
-/

namespace PlaneBridge.CommandLine

/-- What is at a path. -/
def look (path : String) : IO (Except Disk.Failure Disk.Entry) := do
  try
    return .ok (.file (← IO.FS.readBinFile path))
  catch
    | .inappropriateType .. => return .ok .directory
    | _ => return .error .notFound

/-- The paths with what is there. -/
def lookAll (paths : List String) : IO (List (String × Except Disk.Failure Disk.Entry)) :=
  paths.mapM fun path => do return (path, ← look path)

/-- The files that have been looked at. -/
def diskOf (found : List (String × Except Disk.Failure Disk.Entry)) : Disk := fun path =>
  (found.lookup path).getD (.error .notFound)

/-- The paths of a command besides that of the configuration. -/
def Command.paths : Command → List String
  | .translate _ input => [input]
  | _ => []

def variableNames : List String :=
  [Config.Environment.serviceUrl, Config.Environment.username, Config.Environment.password,
    Config.Environment.enabled]

/-- The path of the truststore that a configuration names. -/
def truststorePath (disk : Disk) (e : Config.Environment) (config : String) : List String :=
  match (Config.AdapterConfig.loadOrDefault disk config e).1 with
  | .ok c => c.controlPlane.truststorePath.toList
  | .error _ => []

def noTransport : Delivery.Source Unit := fun s => (.failure "no transport", s)

end PlaneBridge.CommandLine

open PlaneBridge PlaneBridge.CommandLine

def main (words : List String) : IO UInt32 := do
  let values ← variableNames.mapM fun name => do return (name, ← IO.getEnv name)
  let environment : Config.Environment := fun name => (values.lookup name).join
  let found ← match Invocation.ofWords? words with
    | none => pure []
    | some invocation => do
      let found ← lookAll (invocation.config :: invocation.command.paths)
      let more ← lookAll (truststorePath (diskOf found) environment invocation.config)
      pure (found ++ more)
  let result := CommandLine.run (diskOf found) environment noTransport () words
  for notice in result.notices do
    if notice.level = .error then IO.eprintln notice.line
  IO.print result.standardOutput
  if let .error failure := result.output then IO.eprintln failure.message
  return .ofNat result.exitCode
