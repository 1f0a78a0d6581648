import PlaneBridge.Proofs.Config.Document
import PlaneBridge.Proofs.Json.Layout
import PlaneBridge.Proofs.Shape.Json

/-!
# Sections and their messages

A section of a configuration file and its counterpart in the message are records of their own, each
with its own shape.  Most sections are written in the message just as they are in the file, which
`toJson_marshal` says of each of them; a cache, an issuer of tokens and the analytics are written in
another arrangement.  Lists of sections follow by `Shape.toJson_list_map`.

So no section loses a setting: what two sections have been turned into is the same only if they are,
by `Shape.injective_of_toJson` where the names are kept.
-/

namespace PlaneBridge

open Json (Value Layout)

theorem Shape.toJson_record {R : Type} {types : List Type} {fields : Fields types} {default : R}
    {toRow : R → Row types} {ofRow : Row types → R} {ofRow_toRow : ∀ r, ofRow (toRow r) = r}
    {toRow_ofRow : ∀ row, toRow (ofRow row) = row} (r : R) :
    (Shape.record fields default toRow ofRow ofRow_toRow toRow_ofRow).toJson r =
      .obj (fields.toMembers (toRow r)) := rfl

section

variable {α β : Type} {file : Shape α} {message : Shape β} {f : α → β}

theorem Shape.toJson_list_map (h : ∀ a, message.toJson (f a) = file.toJson a) (xs : List α) :
    (Shape.list message).toJson (xs.map f) = (Shape.list file).toJson xs := by
  show Value.arr ((xs.map f).map message.toJson) = .arr (xs.map file.toJson)
  rw [List.map_map]
  exact congrArg Value.arr (List.map_congr_left fun a _ => h a)

theorem Shape.injective_of_toJson (hregular : file.regular = true)
    (h : ∀ a, message.toJson (f a) = file.toJson a) : Function.Injective f := by
  intro a b hab
  refine Shape.toJson_injective hregular ?_
  rw [← h a, ← h b, hab]

end

namespace Config

/-! ## Sections that keep their names -/

theorem ClaimMapping.toJson_marshal (m : ClaimMapping) :
    Enforcer.ClaimMapping.shape.toJson m.marshal = ClaimMapping.shape.toJson m := rfl

theorem Issuer.toJson_marshal (i : Issuer) :
    Enforcer.Issuer.shape.toJson i.marshal = Issuer.shape.toJson i := by
  simp only [Enforcer.Issuer.shape, shape, Shape.toJson_record, Fields.toMembers, marshal,
    Shape.toJson_list_map ClaimMapping.toJson_marshal]

theorem AuthHeader.toJson_marshal (h : AuthHeader) :
    Enforcer.AuthHeader.shape.toJson h.marshal = AuthHeader.shape.toJson h := rfl

theorem Security.toJson_marshal (s : Security) :
    Enforcer.Security.shape.toJson s.marshal = Security.shape.toJson s := by
  simp only [Enforcer.Security.shape, shape, Shape.toJson_record, Fields.toMembers, marshal,
    Shape.toJson_list_map Issuer.toJson_marshal, AuthHeader.toJson_marshal]

theorem ThreadPool.toJson_marshal (p : ThreadPool) :
    Enforcer.ThreadPool.shape.toJson p.marshal = ThreadPool.shape.toJson p := rfl

theorem Service.toJson_marshal (s : Service) :
    Enforcer.Service.shape.toJson s.marshal = Service.shape.toJson s := by
  simp only [Enforcer.Service.shape, shape, Shape.toJson_record, Fields.toMembers, marshal,
    ThreadPool.toJson_marshal]

theorem JwtGenerator.toJson_marshal (g : JwtGenerator) :
    Enforcer.JwtGenerator.shape.toJson g.marshal = JwtGenerator.shape.toJson g := rfl

theorem JwtUser.toJson_marshal (u : JwtUser) :
    Enforcer.JwtUser.shape.toJson u.marshal = JwtUser.shape.toJson u := rfl

theorem Tracing.toJson_marshal (t : Tracing) :
    Enforcer.Tracing.shape.toJson t.marshal = Tracing.shape.toJson t := rfl

theorem Metrics.toJson_marshal (m : Metrics) :
    Enforcer.Metrics.shape.toJson m.marshal = Metrics.shape.toJson m := rfl

theorem UrlGroup.toJson_marshal (g : UrlGroup) :
    Enforcer.UrlGroup.shape.toJson g.marshal = UrlGroup.shape.toJson g := rfl

theorem PublisherPool.toJson_marshal (p : PublisherPool) :
    Enforcer.PublisherPool.shape.toJson p.marshal = PublisherPool.shape.toJson p := rfl

theorem ThrottleAgent.toJson_marshal (a : ThrottleAgent) :
    Enforcer.ThrottleAgent.shape.toJson a.marshal = ThrottleAgent.shape.toJson a := rfl

theorem Publisher.toJson_marshal (p : Publisher) :
    Enforcer.Publisher.shape.toJson p.marshal = Publisher.shape.toJson p := by
  simp only [Enforcer.Publisher.shape, shape, Shape.toJson_record, Fields.toMembers, marshal,
    Shape.toJson_list_map UrlGroup.toJson_marshal, PublisherPool.toJson_marshal,
    ThrottleAgent.toJson_marshal]

theorem Throttling.toJson_marshal (t : Throttling) :
    Enforcer.Throttling.shape.toJson t.marshal = Throttling.shape.toJson t := by
  simp only [Enforcer.Throttling.shape, shape, Shape.toJson_record, Fields.toMembers, marshal,
    Publisher.toJson_marshal]

theorem Management.toJson_marshal (m : Management) :
    Enforcer.Management.shape.toJson m.marshal = Management.shape.toJson m := rfl

theorem RestServer.toJson_marshal (s : RestServer) :
    Enforcer.RestServer.shape.toJson s.marshal = RestServer.shape.toJson s := rfl

theorem Filter.toJson_marshal (f : Filter) :
    Enforcer.Filter.shape.toJson f.marshal = Filter.shape.toJson f := rfl

/-! ## Sections in another arrangement -/

/-- Parts that keep their names. -/
def sameNames (names : List String) : List (String × Layout) :=
  names.map fun name => (name, .part (through [name]))

def JwtIssuer.layout : Layout :=
  .obj (sameNames ["enabled", "issuer", "encoding", "claimDialect", "signingAlgorithm",
      "publicCertificatePath", "privateKeyPath", "validityPeriod"] ++
    [("jwtUsers", .part (through ["jwtUser"]))])

def Cache.layout : Layout :=
  .obj (("enable", .part (through ["enabled"])) :: sameNames ["maximumSize", "expiryTime"])

def AnalyticsSection.layout : Layout :=
  .obj
    [ ("enabled", .part (through ["enabled"])),
      ("configProperties", .part (through ["enforcer", "configProperties"])),
      ("service", .part (through ["enforcer", "logReceiver"])) ]

theorem JwtIssuer.toJson_marshal (i : JwtIssuer) :
    Enforcer.JwtIssuer.shape.toJson i.marshal = layout.fill (shape.toJson i) := by
  simp only [Enforcer.JwtIssuer.shape, Shape.toJson_record, Fields.toMembers, marshal,
    Shape.toJson_list_map JwtUser.toJson_marshal]
  rfl

theorem Cache.toJson_marshal (c : Cache) :
    Enforcer.Cache.shape.toJson c.marshal = layout.fill (shape.toJson c) := rfl

theorem AnalyticsSection.toJson_marshal (a : AnalyticsSection) :
    Enforcer.Analytics.shape.toJson a.marshal = layout.fill (shape.toJson a) := by
  simp only [Enforcer.Analytics.shape, Shape.toJson_record, Fields.toMembers, marshal,
    Service.toJson_marshal]
  rfl

/-! ## No setting is lost -/

theorem JwtIssuer.marshal_injective : Function.Injective JwtIssuer.marshal := by
  intro i i' h
  have husers : i.jwtUser = i'.jwtUser :=
    List.map_injective_iff.mpr (Shape.injective_of_toJson (by decide +kernel) JwtUser.toJson_marshal)
      (congrArg Enforcer.JwtIssuer.jwtUsers h)
  obtain ⟨⟩ := i
  obtain ⟨⟩ := i'
  cases husers
  cases h
  rfl

theorem Cache.marshal_injective : Function.Injective Cache.marshal := by
  rintro ⟨⟩ ⟨⟩ h
  cases h
  rfl

theorem AnalyticsSection.marshal_injective : Function.Injective AnalyticsSection.marshal := by
  intro a a' h
  have hreceiver : a.enforcer.logReceiver = a'.enforcer.logReceiver :=
    Shape.injective_of_toJson (by decide +kernel) Service.toJson_marshal
      (congrArg Enforcer.Analytics.service h)
  obtain ⟨_, _, _⟩ := a
  obtain ⟨_, _, _⟩ := a'
  cases hreceiver
  cases h
  rfl

end Config

open Config in
theorem EnforcerConfig.ofSections_injective {e e' : EnforcerSection} {a a' : AnalyticsSection}
    (h : ofSections e a = ofSections e' a') : e = e' ∧ a = a' := by
  obtain ⟨hgenerator, hissuer, hservice, hsecurity, hcache, htracing, hmetrics, hanalytics,
    hthrottling, hmanagement, hserver, hfilters⟩ := EnforcerConfig.mk.inj h
  refine ⟨?_, AnalyticsSection.marshal_injective hanalytics⟩
  obtain ⟨⟩ := e
  obtain ⟨⟩ := e'
  rw [EnforcerSection.mk.injEq]
  exact
    ⟨Shape.injective_of_toJson (by decide +kernel) Security.toJson_marshal hsecurity,
      Shape.injective_of_toJson (by decide +kernel) Service.toJson_marshal hservice,
      Shape.injective_of_toJson (by decide +kernel) JwtGenerator.toJson_marshal hgenerator,
      JwtIssuer.marshal_injective hissuer,
      Cache.marshal_injective hcache,
      Shape.injective_of_toJson (by decide +kernel) Tracing.toJson_marshal htracing,
      Shape.injective_of_toJson (by decide +kernel) Metrics.toJson_marshal hmetrics,
      Shape.injective_of_toJson (by decide +kernel) Throttling.toJson_marshal hthrottling,
      Shape.injective_of_toJson (by decide +kernel) Management.toJson_marshal hmanagement,
      Shape.injective_of_toJson (by decide +kernel) RestServer.toJson_marshal hserver,
      List.map_injective_iff.mpr
        (Shape.injective_of_toJson (by decide +kernel) Filter.toJson_marshal) hfilters⟩

end PlaneBridge
