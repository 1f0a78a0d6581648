import PlaneBridge.Config.Adapter
import PlaneBridge.Disk

/-!
# Configuration files

A configuration file is read, parsed, overridden from the environment and checked, in that order.
Where there is no file the defaults stand for it.
-/

namespace PlaneBridge.Config.AdapterConfig

/-- The configuration of a file, and what there is to tell. -/
def load (disk : Disk) (path : String) (e : Environment) :
    Except Error AdapterConfig × List Notice :=
  match disk.readText path with
  | .error failure => (.error (.unreadable path failure.message), [])
  | .ok document =>
    match parse document >>= fun c => (c.override e).validated with
    | .error error => (.error error, [])
    | .ok c => (.ok c, [.configurationLoaded path])

/-- The configuration of a file or, where the path leads nowhere, the defaults. -/
def loadOrDefault (disk : Disk) (path : String) (e : Environment) :
    Except Error AdapterConfig × List Notice :=
  if disk.exists? path then load disk path e
  else ((override {} e).validated, [.configurationAbsent path])

end PlaneBridge.Config.AdapterConfig
