import PlaneBridge.Shape.Basic

/-!
# Small sections

The sections of a configuration file that hold a few settings each.
-/

namespace PlaneBridge.Config

structure Cache where
  enabled : Bool := true
  maximumSize : Int32 := 10000
  /-- In minutes. -/
  expiryTime : Int32 := 15
  deriving DecidableEq, Repr

def Cache.shape : Shape Cache :=
  .record (.cons "enabled" .flag <| .cons "maximumSize" .int32 <| .cons "expiryTime" .int32 .nil)
    {}
    (fun c => (c.enabled, c.maximumSize, c.expiryTime, ()))
    (fun (enabled, maximumSize, expiryTime, ()) => { enabled, maximumSize, expiryTime })
    (fun _ => rfl) (fun _ => rfl)

structure Tracing where
  enabled : Bool := false
  kind : String := ""
  configProperties : TextMap := .empty
  deriving DecidableEq, Repr

def Tracing.shape : Shape Tracing :=
  .record (.cons "enabled" .flag <| .cons "type" .text <| .cons "configProperties" .textMap .nil)
    {}
    (fun t => (t.enabled, t.kind, t.configProperties, ()))
    (fun (enabled, kind, configProperties, ()) => { enabled, kind, configProperties })
    (fun _ => rfl) (fun _ => rfl)

structure Metrics where
  enabled : Bool := false
  kind : String := ""
  deriving DecidableEq, Repr

def Metrics.shape : Shape Metrics :=
  .record (.cons "enabled" .flag <| .cons "type" .text .nil)
    {}
    (fun m => (m.enabled, m.kind, ()))
    (fun (enabled, kind, ()) => { enabled, kind })
    (fun _ => rfl) (fun _ => rfl)

structure Management where
  username : String := ""
  password : String := ""
  deriving DecidableEq, Repr

def Management.shape : Shape Management :=
  .record (.cons "username" .text <| .cons "password" .text .nil)
    {}
    (fun m => (m.username, m.password, ()))
    (fun (username, password, ()) => { username, password })
    (fun _ => rfl) (fun _ => rfl)

structure RestServer where
  enable : Bool := false
  deriving DecidableEq, Repr

def RestServer.shape : Shape RestServer :=
  .record (.cons "enable" .flag .nil)
    {}
    (fun s => (s.enable, ()))
    (fun (enable, ()) => { enable })
    (fun _ => rfl) (fun _ => rfl)

/-- A filter that the enforcer runs on requests. -/
structure Filter where
  className : String := ""
  position : Int32 := 0
  configProperties : TextMap := .empty
  deriving DecidableEq, Repr

def Filter.shape : Shape Filter :=
  .record
    (.cons "className" .text <| .cons "position" .int32 <| .cons "configProperties" .textMap .nil)
    {}
    (fun f => (f.className, f.position, f.configProperties, ()))
    (fun (className, position, configProperties, ()) => { className, position, configProperties })
    (fun _ => rfl) (fun _ => rfl)

end PlaneBridge.Config
