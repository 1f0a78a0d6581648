import PlaneBridge.Config.Service
import PlaneBridge.Config.Security
import PlaneBridge.Config.Throttling
import PlaneBridge.Config.Section

/-!
# The enforcer's sections

The sections of a configuration file that are meant for the enforcer.
-/

namespace PlaneBridge.Config

structure EnforcerSection where
  security : Security := {}
  authService : Service := {}
  jwtGenerator : JwtGenerator := {}
  jwtIssuer : JwtIssuer := {}
  cache : Cache := {}
  tracing : Tracing := {}
  metrics : Metrics := {}
  throttling : Throttling := {}
  management : Management := {}
  restServer : RestServer := {}
  filters : List Filter := []
  deriving DecidableEq, Repr

def EnforcerSection.shape : Shape EnforcerSection :=
  .record
    (.cons "security" Security.shape <| .cons "authService" Service.shape <|
      .cons "jwtGenerator" JwtGenerator.shape <| .cons "jwtIssuer" JwtIssuer.shape <|
      .cons "cache" Cache.shape <| .cons "tracing" Tracing.shape <|
      .cons "metrics" Metrics.shape <| .cons "throttling" Throttling.shape <|
      .cons "management" Management.shape <| .cons "restServer" RestServer.shape <|
      .cons "filters" (.list Filter.shape) .nil)
    {}
    (fun e => (e.security, e.authService, e.jwtGenerator, e.jwtIssuer, e.cache, e.tracing,
      e.metrics, e.throttling, e.management, e.restServer, e.filters, ()))
    (fun (security, authService, jwtGenerator, jwtIssuer, cache, tracing, metrics, throttling,
        management, restServer, filters, ()) =>
      { security, authService, jwtGenerator, jwtIssuer, cache, tracing, metrics, throttling,
        management, restServer, filters })
    (fun _ => rfl) (fun _ => rfl)

/-- Where the enforcer sends analytics.  The receiver has a port of its own unless it is described
at all. -/
structure AnalyticsSink where
  configProperties : TextMap := .empty
  logReceiver : Service := { port := 18090 }
  deriving DecidableEq, Repr

def AnalyticsSink.shape : Shape AnalyticsSink :=
  .record (.cons "configProperties" .textMap <| .cons "logReceiver" Service.shape .nil)
    {}
    (fun s => (s.configProperties, s.logReceiver, ()))
    (fun (configProperties, logReceiver, ()) => { configProperties, logReceiver })
    (fun _ => rfl) (fun _ => rfl)

structure AnalyticsSection where
  enabled : Bool := false
  enforcer : AnalyticsSink := {}
  deriving DecidableEq, Repr

def AnalyticsSection.shape : Shape AnalyticsSection :=
  .record (.cons "enabled" .flag <| .cons "enforcer" AnalyticsSink.shape .nil)
    {}
    (fun a => (a.enabled, a.enforcer, ()))
    (fun (enabled, enforcer, ()) => { enabled, enforcer })
    (fun _ => rfl) (fun _ => rfl)

end PlaneBridge.Config
