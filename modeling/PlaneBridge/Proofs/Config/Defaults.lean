import PlaneBridge.Proofs.Config.Document
import PlaneBridge.Proofs.Shape.Defaults

/-!
# What a configuration is where a document says nothing

A setting that a document does not give is what it is in the configuration of defaults, however much
or little is said about its siblings.  There is one exception: the receiver of analytics has a port
of its own only as long as nothing is said about the receiver at all.
-/

namespace PlaneBridge.Config

open Json (Value Path)
open Yaml (Node)

/-- The path to the receiver of analytics. -/
def receiverPath : Path := through ["analytics", "enforcer", "logReceiver"]

def receiverPortPath : Path := receiverPath ++ through ["port"]

/-! ## Defaults of parts and of the whole -/

section

variable (but : List Path) (here : Path)

theorem Service.keepsDefaults : Service.shape.KeepsDefaults but here ({} : Service) := by
  simp [Service.shape, ThreadPool.shape, Shape.KeepsDefaults, Fields.KeepsDefaults]

theorem EnforcerSection.keepsDefaults :
    EnforcerSection.shape.KeepsDefaults but here ({} : EnforcerSection) := by
  simp [EnforcerSection.shape, Service.keepsDefaults, Security.shape, AuthHeader.shape,
    JwtGenerator.shape, JwtIssuer.shape, Cache.shape, Tracing.shape, Metrics.shape,
    Throttling.shape, Publisher.shape, PublisherPool.shape, ThrottleAgent.shape, Management.shape,
    RestServer.shape, Shape.KeepsDefaults, Fields.KeepsDefaults]

theorem ControlPlane.keepsDefaults :
    ControlPlane.shape.KeepsDefaults but here ({} : ControlPlane) := by
  simp [ControlPlane.shape, Shape.KeepsDefaults, Fields.KeepsDefaults]

end

theorem AdapterConfig.keepsDefaults :
    AdapterConfig.shape.KeepsDefaults [receiverPortPath] [] ({} : AdapterConfig) := by
  simp [AdapterConfig.shape, EnforcerSection.keepsDefaults, ControlPlane.keepsDefaults,
    AnalyticsSection.shape, AnalyticsSink.shape, Service.shape, ThreadPool.shape,
    Shape.KeepsDefaults, Fields.KeepsDefaults, receiverPortPath, receiverPath, through]

/-! ## What is not given -/

section

variable {text : String} {root : Node} (hroot : Yaml.root? text.toList = some root)
  {c : AdapterConfig} (hc : AdapterConfig.parse text = .ok c)

include hroot hc

theorem default_of_absent {p : Path} (hp : p.avoidsItems = true)
    (hshape : (AdapterConfig.shape.at? p).isSome)
    (habsent : root.at? root.anchored p = none) (hport : ¬ receiverPortPath <+: p) :
    (AdapterConfig.shape.toJson c).at? p = (AdapterConfig.shape.toJson {}).at? p := by
  refine Shape.at?_of_absent AdapterConfig.keepsDefaults (read?_of_parse hroot hc) hp hshape habsent
    fun place hplace => ?_
  rw [List.mem_singleton.mp hplace]
  exact hport

/-- A receiver that is described has the port of any service. -/
theorem receiverPort_of_absent
    (hgiven : (root.at? root.anchored receiverPath).isSome)
    (habsent : root.at? root.anchored receiverPortPath = none) :
    (AdapterConfig.shape.toJson c).at? receiverPortPath =
      (Service.shape.toJson {}).at? (through ["port"]) := by
  obtain ⟨m, hm⟩ := Option.isSome_iff_exists.mp hgiven
  obtain ⟨s, hs, hat⟩ := Shape.at?_of_read? (read?_of_parse hroot hc) hm
    (show AdapterConfig.shape.at? receiverPath = some ⟨_, Service.shape⟩ from rfl)
  have hbelow : m.at? root.anchored (through ["port"]) = none := by
    rw [receiverPortPath, Node.at?_append, hm] at habsent
    exact habsent
  rw [receiverPortPath, Value.at?_append, hat]
  exact Shape.at?_of_absent (Service.keepsDefaults [] []) hs rfl rfl hbelow
    fun _ h => absurd h List.not_mem_nil

/-- What is not given is by default, and the port of a receiver that is described is that of any
service. -/
theorem absent_settings {p : Path} (hp : p.avoidsItems = true)
    (hshape : (AdapterConfig.shape.at? p).isSome)
    (habsent : root.at? root.anchored p = none) :
    (AdapterConfig.shape.toJson c).at? p =
      if p = receiverPortPath ∧ (root.at? root.anchored receiverPath).isSome then
        some (Shape.int32.toJson 8081)
      else (AdapterConfig.shape.toJson {}).at? p := by
  by_cases hport : receiverPortPath <+: p
  · obtain ⟨q, rfl⟩ := hport
    cases q with
    | cons s q =>
      -- nothing is below a port
      cases s <;> cases hshape
    | nil =>
      rw [List.append_nil] at habsent ⊢
      by_cases hgiven : (root.at? root.anchored receiverPath).isSome
      · rw [if_pos ⟨rfl, hgiven⟩]
        exact receiverPort_of_absent hroot hc hgiven habsent
      · have hreceiver := default_of_absent hroot hc (show receiverPath.avoidsItems = true from rfl)
          rfl (Option.not_isSome_iff_eq_none.mp hgiven) (by decide)
        rw [if_neg fun h => hgiven h.2, receiverPortPath, Value.at?_append, Value.at?_append,
          hreceiver]
  · have hne : p ≠ receiverPortPath := fun h => hport (h ▸ List.prefix_rfl)
    rw [if_neg fun h => hne h.1]
    exact default_of_absent hroot hc hp hshape habsent hport

end

/-- A document that gives one setting of a thread pool. -/
def poolText : String := "enforcer: \x7bauthService: \x7bthreadPool: \x7bcoreSize: 7\x7d\x7d\x7d"

theorem absent_settings_pool :
    ∃ root c, Yaml.root? poolText.toList = some root ∧ AdapterConfig.parse poolText = .ok c ∧
      (AdapterConfig.shape.toJson c).at?
        (through ["enforcer", "authService", "threadPool", "queueSize"]) =
          some (Shape.int32.toJson 1000) := by
  obtain ⟨root, hroot⟩ := Option.isSome_iff_exists.mp
    (show (Yaml.root? poolText.toList).isSome by decide +kernel)
  obtain ⟨c, hc⟩ := Option.isSome_iff_exists.mp
    (show (AdapterConfig.shape.ofYaml poolText).isSome by decide +kernel)
  have hparse : AdapterConfig.parse poolText = .ok c := by rw [AdapterConfig.parse, hc]
  have habsent : (Yaml.root? poolText.toList).bind (fun r => r.at? r.anchored
      (through ["enforcer", "authService", "threadPool", "queueSize"])) = none := by
    decide +kernel
  rw [hroot, Option.bind_some] at habsent
  refine ⟨root, c, hroot, hparse, ?_⟩
  rw [absent_settings hroot hparse (show Json.Path.avoidsItems _ = true from rfl) rfl habsent,
    if_neg fun h => absurd h.1 (by decide)]
  rfl

/-- A document that gives one setting of the receiver of analytics. -/
def receiverText : String :=
  "analytics:\n  enforcer:\n    logReceiver:\n      keepAliveTime: 10\n"

/-- The receiver's port is not given, and still it is not what it is by default. -/
theorem receiverPort_not_default :
    ∃ root c, Yaml.root? receiverText.toList = some root ∧
      AdapterConfig.parse receiverText = .ok c ∧
      root.at? root.anchored receiverPortPath = none ∧
      (AdapterConfig.shape.toJson c).at? receiverPortPath = some (Shape.int32.toJson 8081) ∧
      (AdapterConfig.shape.toJson {}).at? receiverPortPath = some (Shape.int32.toJson 18090) := by
  obtain ⟨root, hroot⟩ := Option.isSome_iff_exists.mp
    (show (Yaml.root? receiverText.toList).isSome by decide +kernel)
  have habsent : (Yaml.root? receiverText.toList).bind (fun r =>
      r.at? r.anchored receiverPortPath) = none := by
    decide +kernel
  rw [hroot, Option.bind_some] at habsent
  let c : AdapterConfig := { analytics := { enforcer := { logReceiver := { keepAliveTime := 10 } } } }
  have hread : AdapterConfig.shape.ofYaml receiverText = some c := by decide +kernel
  refine ⟨root, c, hroot, ?_, habsent, rfl, rfl⟩
  rw [AdapterConfig.parse, hread]

end PlaneBridge.Config
