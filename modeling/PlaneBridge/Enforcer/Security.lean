import PlaneBridge.Shape.Basic

/-!
# Tokens, as the enforcer receives them

Which issuers of tokens the enforcer trusts, and the tokens that it makes itself.  No message may
leave out a setting, so that those of an empty record are all blank.
-/

namespace PlaneBridge.Enforcer

structure ClaimMapping where
  remoteClaim : String := ""
  localClaim : String := ""
  deriving DecidableEq, Repr

def ClaimMapping.shape : Shape ClaimMapping :=
  .record (.cons "remoteClaim" .text <| .cons "localClaim" .text .nil)
    {}
    (fun m => (m.remoteClaim, m.localClaim, ()))
    (fun (remoteClaim, localClaim, ()) => { remoteClaim, localClaim })
    (fun _ => rfl) (fun _ => rfl)

structure Issuer where
  name : String := ""
  issuer : String := ""
  certificateAlias : String := ""
  certificateFilePath : String := ""
  jwksUrl : String := ""
  consumerKeyClaim : String := ""
  validateSubscription : Bool := false
  claimMapping : List ClaimMapping := []
  deriving DecidableEq, Repr

def Issuer.shape : Shape Issuer :=
  .record
    (.cons "name" .text <| .cons "issuer" .text <| .cons "certificateAlias" .text <|
      .cons "certificateFilePath" .text <| .cons "jwksUrl" .text <|
      .cons "consumerKeyClaim" .text <| .cons "validateSubscription" .flag <|
      .cons "claimMapping" (.list ClaimMapping.shape) .nil)
    {}
    (fun i => (i.name, i.issuer, i.certificateAlias, i.certificateFilePath, i.jwksUrl,
      i.consumerKeyClaim, i.validateSubscription, i.claimMapping, ()))
    (fun (name, issuer, certificateAlias, certificateFilePath, jwksUrl, consumerKeyClaim,
        validateSubscription, claimMapping, ()) =>
      { name, issuer, certificateAlias, certificateFilePath, jwksUrl, consumerKeyClaim,
        validateSubscription, claimMapping })
    (fun _ => rfl) (fun _ => rfl)

structure AuthHeader where
  enableOutboundAuthHeader : Bool := false
  authorizationHeader : String := ""
  testConsoleHeaderName : String := ""
  deriving DecidableEq, Repr

def AuthHeader.shape : Shape AuthHeader :=
  .record
    (.cons "enableOutboundAuthHeader" .flag <| .cons "authorizationHeader" .text <|
      .cons "testConsoleHeaderName" .text .nil)
    {}
    (fun h => (h.enableOutboundAuthHeader, h.authorizationHeader, h.testConsoleHeaderName, ()))
    (fun (enableOutboundAuthHeader, authorizationHeader, testConsoleHeaderName, ()) =>
      { enableOutboundAuthHeader, authorizationHeader, testConsoleHeaderName })
    (fun _ => rfl) (fun _ => rfl)

structure Security where
  tokenService : List Issuer := []
  authHeader : AuthHeader := {}
  deriving DecidableEq, Repr

def Security.shape : Shape Security :=
  .record
    (.cons "tokenService" (.list Issuer.shape) <| .cons "authHeader" AuthHeader.shape .nil)
    {}
    (fun s => (s.tokenService, s.authHeader, ()))
    (fun (tokenService, authHeader, ()) => { tokenService, authHeader })
    (fun _ => rfl) (fun _ => rfl)

structure JwtGenerator where
  enable : Bool := false
  encoding : String := ""
  claimDialect : String := ""
  convertDialect : Bool := false
  header : String := ""
  signingAlgorithm : String := ""
  enableUserClaims : Bool := false
  gatewayGeneratorImpl : String := ""
  claimsExtractorImpl : String := ""
  publicCertificatePath : String := ""
  privateKeyPath : String := ""
  deriving DecidableEq, Repr

def JwtGenerator.shape : Shape JwtGenerator :=
  .record
    (.cons "enable" .flag <| .cons "encoding" .text <| .cons "claimDialect" .text <|
      .cons "convertDialect" .flag <| .cons "header" .text <| .cons "signingAlgorithm" .text <|
      .cons "enableUserClaims" .flag <| .cons "gatewayGeneratorImpl" .text <|
      .cons "claimsExtractorImpl" .text <| .cons "publicCertificatePath" .text <|
      .cons "privateKeyPath" .text .nil)
    {}
    (fun g => (g.enable, g.encoding, g.claimDialect, g.convertDialect, g.header,
      g.signingAlgorithm, g.enableUserClaims, g.gatewayGeneratorImpl, g.claimsExtractorImpl,
      g.publicCertificatePath, g.privateKeyPath, ()))
    (fun (enable, encoding, claimDialect, convertDialect, header, signingAlgorithm,
        enableUserClaims, gatewayGeneratorImpl, claimsExtractorImpl, publicCertificatePath,
        privateKeyPath, ()) =>
      { enable, encoding, claimDialect, convertDialect, header, signingAlgorithm,
        enableUserClaims, gatewayGeneratorImpl, claimsExtractorImpl, publicCertificatePath,
        privateKeyPath })
    (fun _ => rfl) (fun _ => rfl)

structure JwtUser where
  username : String := ""
  password : String := ""
  deriving DecidableEq, Repr

def JwtUser.shape : Shape JwtUser :=
  .record (.cons "username" .text <| .cons "password" .text .nil)
    {}
    (fun u => (u.username, u.password, ()))
    (fun (username, password, ()) => { username, password })
    (fun _ => rfl) (fun _ => rfl)

structure JwtIssuer where
  enabled : Bool := false
  issuer : String := ""
  encoding : String := ""
  claimDialect : String := ""
  signingAlgorithm : String := ""
  publicCertificatePath : String := ""
  privateKeyPath : String := ""
  validityPeriod : Int32 := 0
  jwtUsers : List JwtUser := []
  deriving DecidableEq, Repr

def JwtIssuer.shape : Shape JwtIssuer :=
  .record
    (.cons "enabled" .flag <| .cons "issuer" .text <| .cons "encoding" .text <|
      .cons "claimDialect" .text <| .cons "signingAlgorithm" .text <|
      .cons "publicCertificatePath" .text <| .cons "privateKeyPath" .text <|
      .cons "validityPeriod" .int32 <| .cons "jwtUsers" (.list JwtUser.shape) .nil)
    {}
    (fun i => (i.enabled, i.issuer, i.encoding, i.claimDialect, i.signingAlgorithm,
      i.publicCertificatePath, i.privateKeyPath, i.validityPeriod, i.jwtUsers, ()))
    (fun (enabled, issuer, encoding, claimDialect, signingAlgorithm, publicCertificatePath,
        privateKeyPath, validityPeriod, jwtUsers, ()) =>
      { enabled, issuer, encoding, claimDialect, signingAlgorithm, publicCertificatePath,
        privateKeyPath, validityPeriod, jwtUsers })
    (fun _ => rfl) (fun _ => rfl)

end PlaneBridge.Enforcer
