import PlaneBridge.Config.ControlPlane
import PlaneBridge.Config.Marshal
import PlaneBridge.Shape.Json
import PlaneBridge.Shape.Yaml
import PlaneBridge.Text.Whitespace

/-!
# The adapter's configuration

A configuration is read from a YAML document, every part of which may be left out.  The environment
may replace settings of the control plane afterwards, and last the configuration is checked: the
adapter does not run with an enabled control plane that has no address, nor with a filter that has
no class.
-/

namespace PlaneBridge.Config

structure AdapterConfig where
  enforcer : EnforcerSection := {}
  analytics : AnalyticsSection := {}
  controlPlane : ControlPlane := {}
  deriving DecidableEq, Repr

def AdapterConfig.shape : Shape AdapterConfig :=
  .record
    (.cons "enforcer" EnforcerSection.shape <| .cons "analytics" AnalyticsSection.shape <|
      .cons "controlPlane" ControlPlane.shape .nil)
    {}
    (fun c => (c.enforcer, c.analytics, c.controlPlane, ()))
    (fun (enforcer, analytics, controlPlane, ()) => { enforcer, analytics, controlPlane })
    (fun _ => rfl) (fun _ => rfl)

inductive Fault where
  /-- The control plane is enabled and its address is blank. -/
  | noServiceUrl
  /-- A filter has no class; it is named by its position. -/
  | noClassName (position : Int32)
  deriving DecidableEq, Repr

def Fault.message : Fault → String
  | .noServiceUrl => "controlPlane.serviceUrl is required when the control plane is enabled"
  | .noClassName position =>
    "enforcer filter at position " ++ decimal position.toInt ++ " has no className"

inductive Error where
  | unreadable (path reason : String)
  | unparsable
  | invalid (fault : Fault)
  deriving DecidableEq, Repr

def Error.message : Error → String
  | .unreadable path reason => "Failed to read configuration file " ++ path ++ ": " ++ reason
  | .unparsable => "Failed to parse configuration"
  | .invalid fault => "Invalid configuration: " ++ fault.message

namespace AdapterConfig

/-- The first fault, that of the control plane before those of filters. -/
def fault? (c : AdapterConfig) : Option Fault :=
  if c.controlPlane.enabled && Text.isBlank c.controlPlane.serviceUrl then some .noServiceUrl
  else (c.enforcer.filters.find? (·.className = "")).map (.noClassName ·.position)

def validated (c : AdapterConfig) : Except Error AdapterConfig :=
  match c.fault? with
  | some fault => .error (.invalid fault)
  | none => .ok c

/-- The configuration with the settings that the environment replaces. -/
def override (c : AdapterConfig) (e : Environment) : AdapterConfig :=
  { c with controlPlane := c.controlPlane.override e }

/-- The configuration that a document holds, not yet checked. -/
def parse (document : String) : Except Error AdapterConfig :=
  match shape.ofYaml document with
  | some c => .ok c
  | none => .error .unparsable

def ofYaml (document : String) : Except Error AdapterConfig := parse document >>= validated

def enforcerConfig (c : AdapterConfig) : EnforcerConfig := .ofSections c.enforcer c.analytics

end AdapterConfig
end PlaneBridge.Config
