import PlaneBridge.Shape.Basic

/-!
# Throttling

How requests are counted and limited, and the traffic managers to which their events are published.
-/

namespace PlaneBridge.Config

/-- Traffic managers that receive the same events. -/
structure UrlGroup where
  receiverUrls : List String := []
  authUrls : List String := []
  kind : String := ""
  deriving DecidableEq, Repr

def UrlGroup.shape : Shape UrlGroup :=
  .record
    (.cons "receiverUrls" (.list .text) <| .cons "authUrls" (.list .text) <|
      .cons "type" .text .nil)
    {}
    (fun g => (g.receiverUrls, g.authUrls, g.kind, ()))
    (fun (receiverUrls, authUrls, kind, ()) => { receiverUrls, authUrls, kind })
    (fun _ => rfl) (fun _ => rfl)

structure PublisherPool where
  initIdleObjectDataPublishingAgents : Int32 := 0
  maxIdleDataPublishingAgents : Int32 := 0
  publisherThreadPoolCoreSize : Int32 := 0
  publisherThreadPoolMaximumSize : Int32 := 0
  publisherThreadPoolKeepAliveTime : Int32 := 0
  deriving DecidableEq, Repr

def PublisherPool.shape : Shape PublisherPool :=
  .record
    (.cons "initIdleObjectDataPublishingAgents" .int32 <|
      .cons "maxIdleDataPublishingAgents" .int32 <|
      .cons "publisherThreadPoolCoreSize" .int32 <|
      .cons "publisherThreadPoolMaximumSize" .int32 <|
      .cons "publisherThreadPoolKeepAliveTime" .int32 .nil)
    {}
    (fun p => (p.initIdleObjectDataPublishingAgents, p.maxIdleDataPublishingAgents,
      p.publisherThreadPoolCoreSize, p.publisherThreadPoolMaximumSize,
      p.publisherThreadPoolKeepAliveTime, ()))
    (fun (initIdleObjectDataPublishingAgents, maxIdleDataPublishingAgents,
        publisherThreadPoolCoreSize, publisherThreadPoolMaximumSize,
        publisherThreadPoolKeepAliveTime, ()) =>
      { initIdleObjectDataPublishingAgents, maxIdleDataPublishingAgents,
        publisherThreadPoolCoreSize, publisherThreadPoolMaximumSize,
        publisherThreadPoolKeepAliveTime })
    (fun _ => rfl) (fun _ => rfl)

/-- The connections on which events are published. -/
structure ThrottleAgent where
  sslEnabledProtocols : String := ""
  ciphers : String := ""
  queueSize : Int32 := 0
  batchSize : Int32 := 0
  corePoolSize : Int32 := 0
  socketTimeoutMS : Int32 := 0
  maxPoolSize : Int32 := 0
  keepAliveTimeInPool : Int32 := 0
  reconnectionInterval : Int32 := 0
  maxTransportPoolSize : Int32 := 0
  maxIdleConnections : Int32 := 0
  evictionTimePeriod : Int32 := 0
  minIdleTimeInPool : Int32 := 0
  secureMaxTransportPoolSize : Int32 := 0
  secureMaxIdleConnections : Int32 := 0
  secureEvictionTimePeriod : Int32 := 0
  secureMinIdleTimeInPool : Int32 := 0
  deriving DecidableEq, Repr

def ThrottleAgent.shape : Shape ThrottleAgent :=
  .record
    (.cons "sslEnabledProtocols" .text <| .cons "ciphers" .text <| .cons "queueSize" .int32 <|
      .cons "batchSize" .int32 <| .cons "corePoolSize" .int32 <|
      .cons "socketTimeoutMS" .int32 <| .cons "maxPoolSize" .int32 <|
      .cons "keepAliveTimeInPool" .int32 <| .cons "reconnectionInterval" .int32 <|
      .cons "maxTransportPoolSize" .int32 <| .cons "maxIdleConnections" .int32 <|
      .cons "evictionTimePeriod" .int32 <| .cons "minIdleTimeInPool" .int32 <|
      .cons "secureMaxTransportPoolSize" .int32 <| .cons "secureMaxIdleConnections" .int32 <|
      .cons "secureEvictionTimePeriod" .int32 <| .cons "secureMinIdleTimeInPool" .int32 .nil)
    {}
    (fun a => (a.sslEnabledProtocols, a.ciphers, a.queueSize, a.batchSize, a.corePoolSize,
      a.socketTimeoutMS, a.maxPoolSize, a.keepAliveTimeInPool, a.reconnectionInterval,
      a.maxTransportPoolSize, a.maxIdleConnections, a.evictionTimePeriod, a.minIdleTimeInPool,
      a.secureMaxTransportPoolSize, a.secureMaxIdleConnections, a.secureEvictionTimePeriod,
      a.secureMinIdleTimeInPool, ()))
    (fun (sslEnabledProtocols, ciphers, queueSize, batchSize, corePoolSize, socketTimeoutMS,
        maxPoolSize, keepAliveTimeInPool, reconnectionInterval, maxTransportPoolSize,
        maxIdleConnections, evictionTimePeriod, minIdleTimeInPool, secureMaxTransportPoolSize,
        secureMaxIdleConnections, secureEvictionTimePeriod, secureMinIdleTimeInPool, ()) =>
      { sslEnabledProtocols, ciphers, queueSize, batchSize, corePoolSize, socketTimeoutMS,
        maxPoolSize, keepAliveTimeInPool, reconnectionInterval, maxTransportPoolSize,
        maxIdleConnections, evictionTimePeriod, minIdleTimeInPool, secureMaxTransportPoolSize,
        secureMaxIdleConnections, secureEvictionTimePeriod, secureMinIdleTimeInPool })
    (fun _ => rfl) (fun _ => rfl)

/-- How events of throttling are published. -/
structure Publisher where
  username : String := ""
  password : String := ""
  urlGroup : List UrlGroup := []
  pool : PublisherPool := {}
  agent : ThrottleAgent := {}
  deriving DecidableEq, Repr

def Publisher.shape : Shape Publisher :=
  .record
    (.cons "username" .text <| .cons "password" .text <|
      .cons "urlGroup" (.list UrlGroup.shape) <| .cons "pool" PublisherPool.shape <|
      .cons "agent" ThrottleAgent.shape .nil)
    {}
    (fun p => (p.username, p.password, p.urlGroup, p.pool, p.agent, ()))
    (fun (username, password, urlGroup, pool, agent, ()) =>
      { username, password, urlGroup, pool, agent })
    (fun _ => rfl) (fun _ => rfl)

structure Throttling where
  enableGlobalEventPublishing : Bool := false
  enableHeaderConditions : Bool := false
  enableQueryParamConditions : Bool := false
  enableJwtClaimConditions : Bool := false
  jmsConnectionInitialContextFactory : String := ""
  jmsConnectionProviderUrl : String := ""
  publisher : Publisher := {}
  deriving DecidableEq, Repr

def Throttling.shape : Shape Throttling :=
  .record
    (.cons "enableGlobalEventPublishing" .flag <| .cons "enableHeaderConditions" .flag <|
      .cons "enableQueryParamConditions" .flag <| .cons "enableJwtClaimConditions" .flag <|
      .cons "jmsConnectionInitialContextFactory" .text <|
      .cons "jmsConnectionProviderUrl" .text <| .cons "publisher" Publisher.shape .nil)
    {}
    (fun t => (t.enableGlobalEventPublishing, t.enableHeaderConditions,
      t.enableQueryParamConditions, t.enableJwtClaimConditions,
      t.jmsConnectionInitialContextFactory, t.jmsConnectionProviderUrl, t.publisher, ()))
    (fun (enableGlobalEventPublishing, enableHeaderConditions, enableQueryParamConditions,
        enableJwtClaimConditions, jmsConnectionInitialContextFactory, jmsConnectionProviderUrl,
        publisher, ()) =>
      { enableGlobalEventPublishing, enableHeaderConditions, enableQueryParamConditions,
        enableJwtClaimConditions, jmsConnectionInitialContextFactory, jmsConnectionProviderUrl,
        publisher })
    (fun _ => rfl) (fun _ => rfl)

end PlaneBridge.Config
