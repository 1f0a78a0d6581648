import PlaneBridge.Shape.Basic

/-!
# Services

The settings of a service that answers calls over the network: the authorization service and the
receiver of analytics have them.
-/

namespace PlaneBridge.Config

structure ThreadPool where
  coreSize : Int32 := 400
  maxSize : Int32 := 500
  keepAliveTime : Int32 := 600
  queueSize : Int32 := 1000
  deriving DecidableEq, Repr

def ThreadPool.shape : Shape ThreadPool :=
  .record
    (.cons "coreSize" .int32 <| .cons "maxSize" .int32 <| .cons "keepAliveTime" .int32 <|
      .cons "queueSize" .int32 .nil)
    {}
    (fun p => (p.coreSize, p.maxSize, p.keepAliveTime, p.queueSize, ()))
    (fun (coreSize, maxSize, keepAliveTime, queueSize, ()) =>
      { coreSize, maxSize, keepAliveTime, queueSize })
    (fun _ => rfl) (fun _ => rfl)

structure Service where
  port : Int32 := 8081
  maxMessageSize : Int32 := 1000000000
  maxHeaderLimit : Int32 := 8192
  /-- In seconds. -/
  keepAliveTime : Int32 := 600
  threadPool : ThreadPool := {}
  deriving DecidableEq, Repr

def Service.shape : Shape Service :=
  .record
    (.cons "port" .int32 <| .cons "maxMessageSize" .int32 <| .cons "maxHeaderLimit" .int32 <|
      .cons "keepAliveTime" .int32 <| .cons "threadPool" ThreadPool.shape .nil)
    {}
    (fun s => (s.port, s.maxMessageSize, s.maxHeaderLimit, s.keepAliveTime, s.threadPool, ()))
    (fun (port, maxMessageSize, maxHeaderLimit, keepAliveTime, threadPool, ()) =>
      { port, maxMessageSize, maxHeaderLimit, keepAliveTime, threadPool })
    (fun _ => rfl) (fun _ => rfl)

end PlaneBridge.Config
