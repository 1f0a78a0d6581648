import PlaneBridge.Config.Enforcer
import PlaneBridge.Enforcer.Config

/-!
# From the file to the message

Each section of a configuration file has its counterpart in the message to the enforcer, and is
carried over setting by setting.  A cache is switched on under another name, the users to whom
tokens are issued go by another one too, and the receiver of analytics moves up one level.
-/

namespace PlaneBridge

namespace Config

def ClaimMapping.marshal (m : ClaimMapping) : Enforcer.ClaimMapping where
  remoteClaim := m.remoteClaim
  localClaim := m.localClaim

def Issuer.marshal (i : Issuer) : Enforcer.Issuer where
  name := i.name
  issuer := i.issuer
  certificateAlias := i.certificateAlias
  certificateFilePath := i.certificateFilePath
  jwksUrl := i.jwksUrl
  consumerKeyClaim := i.consumerKeyClaim
  validateSubscription := i.validateSubscription
  claimMapping := i.claimMapping.map ClaimMapping.marshal

def AuthHeader.marshal (h : AuthHeader) : Enforcer.AuthHeader where
  enableOutboundAuthHeader := h.enableOutboundAuthHeader
  authorizationHeader := h.authorizationHeader
  testConsoleHeaderName := h.testConsoleHeaderName

def Security.marshal (s : Security) : Enforcer.Security where
  tokenService := s.tokenService.map Issuer.marshal
  authHeader := s.authHeader.marshal

def ThreadPool.marshal (p : ThreadPool) : Enforcer.ThreadPool where
  coreSize := p.coreSize
  maxSize := p.maxSize
  keepAliveTime := p.keepAliveTime
  queueSize := p.queueSize

def Service.marshal (s : Service) : Enforcer.Service where
  port := s.port
  maxMessageSize := s.maxMessageSize
  maxHeaderLimit := s.maxHeaderLimit
  keepAliveTime := s.keepAliveTime
  threadPool := s.threadPool.marshal

def JwtGenerator.marshal (g : JwtGenerator) : Enforcer.JwtGenerator where
  enable := g.enable
  encoding := g.encoding
  claimDialect := g.claimDialect
  convertDialect := g.convertDialect
  header := g.header
  signingAlgorithm := g.signingAlgorithm
  enableUserClaims := g.enableUserClaims
  gatewayGeneratorImpl := g.gatewayGeneratorImpl
  claimsExtractorImpl := g.claimsExtractorImpl
  publicCertificatePath := g.publicCertificatePath
  privateKeyPath := g.privateKeyPath

def JwtUser.marshal (u : JwtUser) : Enforcer.JwtUser where
  username := u.username
  password := u.password

def JwtIssuer.marshal (i : JwtIssuer) : Enforcer.JwtIssuer where
  enabled := i.enabled
  issuer := i.issuer
  encoding := i.encoding
  claimDialect := i.claimDialect
  signingAlgorithm := i.signingAlgorithm
  publicCertificatePath := i.publicCertificatePath
  privateKeyPath := i.privateKeyPath
  validityPeriod := i.validityPeriod
  jwtUsers := i.jwtUser.map JwtUser.marshal

def Cache.marshal (c : Cache) : Enforcer.Cache where
  enable := c.enabled
  maximumSize := c.maximumSize
  expiryTime := c.expiryTime

def Tracing.marshal (t : Tracing) : Enforcer.Tracing where
  enabled := t.enabled
  kind := t.kind
  configProperties := t.configProperties

def Metrics.marshal (m : Metrics) : Enforcer.Metrics where
  enabled := m.enabled
  kind := m.kind

def AnalyticsSection.marshal (a : AnalyticsSection) : Enforcer.Analytics where
  enabled := a.enabled
  configProperties := a.enforcer.configProperties
  service := a.enforcer.logReceiver.marshal

def UrlGroup.marshal (g : UrlGroup) : Enforcer.UrlGroup where
  receiverUrls := g.receiverUrls
  authUrls := g.authUrls
  kind := g.kind

def PublisherPool.marshal (p : PublisherPool) : Enforcer.PublisherPool where
  initIdleObjectDataPublishingAgents := p.initIdleObjectDataPublishingAgents
  maxIdleDataPublishingAgents := p.maxIdleDataPublishingAgents
  publisherThreadPoolCoreSize := p.publisherThreadPoolCoreSize
  publisherThreadPoolMaximumSize := p.publisherThreadPoolMaximumSize
  publisherThreadPoolKeepAliveTime := p.publisherThreadPoolKeepAliveTime

def ThrottleAgent.marshal (a : ThrottleAgent) : Enforcer.ThrottleAgent where
  sslEnabledProtocols := a.sslEnabledProtocols
  ciphers := a.ciphers
  queueSize := a.queueSize
  batchSize := a.batchSize
  corePoolSize := a.corePoolSize
  socketTimeoutMS := a.socketTimeoutMS
  maxPoolSize := a.maxPoolSize
  keepAliveTimeInPool := a.keepAliveTimeInPool
  reconnectionInterval := a.reconnectionInterval
  maxTransportPoolSize := a.maxTransportPoolSize
  maxIdleConnections := a.maxIdleConnections
  evictionTimePeriod := a.evictionTimePeriod
  minIdleTimeInPool := a.minIdleTimeInPool
  secureMaxTransportPoolSize := a.secureMaxTransportPoolSize
  secureMaxIdleConnections := a.secureMaxIdleConnections
  secureEvictionTimePeriod := a.secureEvictionTimePeriod
  secureMinIdleTimeInPool := a.secureMinIdleTimeInPool

def Publisher.marshal (p : Publisher) : Enforcer.Publisher where
  username := p.username
  password := p.password
  urlGroup := p.urlGroup.map UrlGroup.marshal
  pool := p.pool.marshal
  agent := p.agent.marshal

def Throttling.marshal (t : Throttling) : Enforcer.Throttling where
  enableGlobalEventPublishing := t.enableGlobalEventPublishing
  enableHeaderConditions := t.enableHeaderConditions
  enableQueryParamConditions := t.enableQueryParamConditions
  enableJwtClaimConditions := t.enableJwtClaimConditions
  jmsConnectionInitialContextFactory := t.jmsConnectionInitialContextFactory
  jmsConnectionProviderUrl := t.jmsConnectionProviderUrl
  publisher := t.publisher.marshal

def Management.marshal (m : Management) : Enforcer.Management where
  username := m.username
  password := m.password

def RestServer.marshal (s : RestServer) : Enforcer.RestServer where
  enable := s.enable

def Filter.marshal (f : Filter) : Enforcer.Filter where
  className := f.className
  position := f.position
  configProperties := f.configProperties

end Config

/-- The message that carries the sections. -/
def EnforcerConfig.ofSections (enforcer : Config.EnforcerSection)
    (analytics : Config.AnalyticsSection) : EnforcerConfig where
  jwtGenerator := enforcer.jwtGenerator.marshal
  jwtIssuer := enforcer.jwtIssuer.marshal
  authService := enforcer.authService.marshal
  security := enforcer.security.marshal
  cache := enforcer.cache.marshal
  tracing := enforcer.tracing.marshal
  metrics := enforcer.metrics.marshal
  analytics := analytics.marshal
  throttling := enforcer.throttling.marshal
  management := enforcer.management.marshal
  restServer := enforcer.restServer.marshal
  filters := enforcer.filters.map Config.Filter.marshal

end PlaneBridge
