import PlaneBridge.Enforcer.Security
import PlaneBridge.Enforcer.Throttling

/-!
# The message to the enforcer

The enforcer's configuration as the enforcer receives it.  A configuration file has sections of its
own for it, which may leave out what they like; of the message nothing may be left out.
-/

namespace PlaneBridge

namespace Enforcer

structure ThreadPool where
  coreSize : Int32 := 0
  maxSize : Int32 := 0
  keepAliveTime : Int32 := 0
  queueSize : Int32 := 0
  deriving DecidableEq, Repr

def ThreadPool.shape : Shape ThreadPool :=
  .record
    (.cons "coreSize" .int32 <| .cons "maxSize" .int32 <| .cons "keepAliveTime" .int32 <|
      .cons "queueSize" .int32 .nil)
    {}
    (fun p => (p.coreSize, p.maxSize, p.keepAliveTime, p.queueSize, ()))
    (fun (coreSize, maxSize, keepAliveTime, queueSize, ()) =>
      { coreSize, maxSize, keepAliveTime, queueSize })
    (fun _ => rfl) (fun _ => rfl)

/-- A service that answers calls over the network. -/
structure Service where
  port : Int32 := 0
  maxMessageSize : Int32 := 0
  maxHeaderLimit : Int32 := 0
  keepAliveTime : Int32 := 0
  threadPool : ThreadPool := {}
  deriving DecidableEq, Repr

def Service.shape : Shape Service :=
  .record
    (.cons "port" .int32 <| .cons "maxMessageSize" .int32 <| .cons "maxHeaderLimit" .int32 <|
      .cons "keepAliveTime" .int32 <| .cons "threadPool" ThreadPool.shape .nil)
    {}
    (fun s => (s.port, s.maxMessageSize, s.maxHeaderLimit, s.keepAliveTime, s.threadPool, ()))
    (fun (port, maxMessageSize, maxHeaderLimit, keepAliveTime, threadPool, ()) =>
      { port, maxMessageSize, maxHeaderLimit, keepAliveTime, threadPool })
    (fun _ => rfl) (fun _ => rfl)

structure Cache where
  enable : Bool := false
  maximumSize : Int32 := 0
  expiryTime : Int32 := 0
  deriving DecidableEq, Repr

def Cache.shape : Shape Cache :=
  .record (.cons "enable" .flag <| .cons "maximumSize" .int32 <| .cons "expiryTime" .int32 .nil)
    {}
    (fun c => (c.enable, c.maximumSize, c.expiryTime, ()))
    (fun (enable, maximumSize, expiryTime, ()) => { enable, maximumSize, expiryTime })
    (fun _ => rfl) (fun _ => rfl)

structure Tracing where
  enabled : Bool := false
  kind : String := ""
  configProperties : TextMap := .empty
  deriving DecidableEq, Repr

def Tracing.shape : Shape Tracing :=
  .record (.cons "enabled" .flag <| .cons "type" .text <| .cons "configProperties" .textMap .nil)
    {}
    (fun t => (t.enabled, t.kind, t.configProperties, ()))
    (fun (enabled, kind, configProperties, ()) => { enabled, kind, configProperties })
    (fun _ => rfl) (fun _ => rfl)

structure Metrics where
  enabled : Bool := false
  kind : String := ""
  deriving DecidableEq, Repr

def Metrics.shape : Shape Metrics :=
  .record (.cons "enabled" .flag <| .cons "type" .text .nil)
    {}
    (fun m => (m.enabled, m.kind, ()))
    (fun (enabled, kind, ()) => { enabled, kind })
    (fun _ => rfl) (fun _ => rfl)

structure Analytics where
  enabled : Bool := false
  configProperties : TextMap := .empty
  service : Service := {}
  deriving DecidableEq, Repr

def Analytics.shape : Shape Analytics :=
  .record
    (.cons "enabled" .flag <| .cons "configProperties" .textMap <|
      .cons "service" Service.shape .nil)
    {}
    (fun a => (a.enabled, a.configProperties, a.service, ()))
    (fun (enabled, configProperties, service, ()) => { enabled, configProperties, service })
    (fun _ => rfl) (fun _ => rfl)

structure Management where
  username : String := ""
  password : String := ""
  deriving DecidableEq, Repr

def Management.shape : Shape Management :=
  .record (.cons "username" .text <| .cons "password" .text .nil)
    {}
    (fun m => (m.username, m.password, ()))
    (fun (username, password, ()) => { username, password })
    (fun _ => rfl) (fun _ => rfl)

structure RestServer where
  enable : Bool := false
  deriving DecidableEq, Repr

def RestServer.shape : Shape RestServer :=
  .record (.cons "enable" .flag .nil)
    {}
    (fun s => (s.enable, ()))
    (fun (enable, ()) => { enable })
    (fun _ => rfl) (fun _ => rfl)

structure Filter where
  className : String := ""
  position : Int32 := 0
  configProperties : TextMap := .empty
  deriving DecidableEq, Repr

def Filter.shape : Shape Filter :=
  .record
    (.cons "className" .text <| .cons "position" .int32 <| .cons "configProperties" .textMap .nil)
    {}
    (fun f => (f.className, f.position, f.configProperties, ()))
    (fun (className, position, configProperties, ()) => { className, position, configProperties })
    (fun _ => rfl) (fun _ => rfl)

end Enforcer

/-- The configuration as the enforcer receives it. -/
structure EnforcerConfig where
  jwtGenerator : Enforcer.JwtGenerator := {}
  jwtIssuer : Enforcer.JwtIssuer := {}
  authService : Enforcer.Service := {}
  security : Enforcer.Security := {}
  cache : Enforcer.Cache := {}
  tracing : Enforcer.Tracing := {}
  metrics : Enforcer.Metrics := {}
  analytics : Enforcer.Analytics := {}
  throttling : Enforcer.Throttling := {}
  management : Enforcer.Management := {}
  restServer : Enforcer.RestServer := {}
  filters : List Enforcer.Filter := []
  deriving DecidableEq, Repr

open Enforcer in
def EnforcerConfig.shape : Shape EnforcerConfig :=
  .record
    (.cons "jwtGenerator" JwtGenerator.shape <| .cons "jwtIssuer" JwtIssuer.shape <|
      .cons "authService" Service.shape <| .cons "security" Security.shape <|
      .cons "cache" Cache.shape <| .cons "tracing" Tracing.shape <|
      .cons "metrics" Metrics.shape <| .cons "analytics" Analytics.shape <|
      .cons "throttling" Throttling.shape <| .cons "management" Management.shape <|
      .cons "restServer" RestServer.shape <| .cons "filters" (.list Filter.shape) .nil)
    {}
    (fun e => (e.jwtGenerator, e.jwtIssuer, e.authService, e.security, e.cache, e.tracing,
      e.metrics, e.analytics, e.throttling, e.management, e.restServer, e.filters, ()))
    (fun (jwtGenerator, jwtIssuer, authService, security, cache, tracing, metrics, analytics,
        throttling, management, restServer, filters, ()) =>
      { jwtGenerator, jwtIssuer, authService, security, cache, tracing, metrics, analytics,
        throttling, management, restServer, filters })
    (fun _ => rfl) (fun _ => rfl)

end PlaneBridge
