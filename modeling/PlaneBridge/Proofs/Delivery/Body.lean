import PlaneBridge.Proofs.Delivery.Skip
import PlaneBridge.Proofs.Shape.Json

/-!
# What a body says

Whoever reads the body of a request finds the message that it was made from: the revisions that have
been deployed, in their order and each with all of its environments, or the one that has been taken
away.  `bodies_readBack` says so of every request that a message comes to.  As reading has one
result, messages of one kind have different bodies unless they are the same.
-/

namespace PlaneBridge.Delivery.Notification

variable {σ : Type} {c c' : Config.ControlPlane} {n n' : Notification}

theorem body_deployed (c : Config.ControlPlane) (revisions : List DeployedRevision) :
    (Shape.list DeployedRevision.shape).ofText true ((deployed revisions).request c).body =
      .ok revisions :=
  Shape.ofText_printed (by decide +kernel) (Shape.encodes_toJson _ revisions) true (Or.inl rfl)

theorem body_removed (c : Config.ControlPlane) (r : RemovedRevision) :
    RemovedRevision.shape.ofText true ((removed r).request c).body = .ok r :=
  Shape.ofText_printed (by decide +kernel) (Shape.encodes_toJson _ r) true (Or.inl rfl)

theorem body_injective (hkind : n.method = n'.method)
    (h : (n.request c).body = (n'.request c').body) : n = n' := by
  cases n with
  | deployed revisions =>
    cases n' with
    | deployed revisions' =>
      have hread := body_deployed c revisions
      rw [h, body_deployed c' revisions'] at hread
      rw [Except.ok.inj hread]
    | removed r' => cases hkind
  | removed r =>
    cases n' with
    | deployed revisions' => cases hkind
    | removed r' =>
      have hread := body_removed c r
      rw [h, body_removed c' r'] at hread
      rw [Except.ok.inj hread]

/-- A revision deployed under one host has an environment for each of the names. -/
theorem under_environments (apiId : String) (revisionId : Int64) (names : List String)
    (vhost : String) :
    (DeployedRevision.under apiId revisionId names vhost).environments.map (·.name) = names ∧
      ∀ e ∈ (DeployedRevision.under apiId revisionId names vhost).environments,
        e.vhost = vhost := by
  constructor
  · exact List.map_map.trans (List.map_id' names)
  · intro e he
    obtain ⟨name, -, rfl⟩ := List.mem_map.mp he
    rfl

/-- The body of every request is read as the message that it carries, and a message that is not
skipped has requests.  Messages of one kind with the same body are the same. -/
theorem bodies_readBack (next : Source σ) (s : σ) :
    (∀ (c : Config.ControlPlane) (revisions : List DeployedRevision), c.enabled = true →
      revisions ≠ [] → ((deployed revisions).send next c s).requests ≠ [] ∧
        ∀ q ∈ ((deployed revisions).send next c s).requests,
          (Shape.list DeployedRevision.shape).ofText true q.body = .ok revisions) ∧
    (∀ (c : Config.ControlPlane) (before after : List DeployedRevision) (apiId : String)
      (revisionId : Int64) (names : List String) (vhost : String),
      ∀ q ∈ ((deployed (before ++ .under apiId revisionId names vhost :: after)).send next c
          s).requests,
        ∃ r, (Shape.list DeployedRevision.shape).ofText true q.body = .ok (before ++ r :: after) ∧
          r.apiId = apiId ∧ r.revisionId = revisionId ∧ r.environments.map (·.name) = names ∧
          ∀ e ∈ r.environments, e.vhost = vhost) ∧
    (∀ (c : Config.ControlPlane) (apiUUID revisionUUID environment : String), apiUUID ≠ "" →
      revisionUUID ≠ "" → environment ≠ "" →
      ((removed ⟨apiUUID, revisionUUID, environment⟩).send next c s).requests ≠ [] ∧
        ∀ q ∈ ((removed ⟨apiUUID, revisionUUID, environment⟩).send next c s).requests,
          RemovedRevision.shape.ofText true q.body =
            .ok ⟨apiUUID, revisionUUID, environment⟩) ∧
    ∀ (c c' : Config.ControlPlane) (s' : σ) (n n' : Notification), n.method = n'.method →
      ∀ q ∈ (n.send next c s).requests, ∀ q' ∈ (n'.send next c' s').requests,
        q.body = q'.body → n = n' := by
  refine ⟨?_, ?_, ?_, ?_⟩
  · intro c revisions henabled hne
    obtain ⟨r, rest, rfl⟩ := List.exists_cons_of_ne_nil hne
    refine ⟨requests_send_ne_nil.mpr ?_, fun q hq => ?_⟩
    · rw [skip?_deployed_cons, if_pos henabled]
    · rw [eq_request_of_mem_send hq]
      exact body_deployed c _
  · intro c before after apiId revisionId names vhost q hq
    rw [eq_request_of_mem_send hq]
    exact ⟨_, body_deployed c _, rfl, rfl, under_environments apiId revisionId names vhost⟩
  · intro c apiUUID revisionUUID environment hapi hrevision henvironment
    refine ⟨requests_send_ne_nil.mpr ?_, fun q hq => ?_⟩
    · rw [skip?_removed, if_neg (not_or.mpr ⟨hapi, not_or.mpr ⟨hrevision, henvironment⟩⟩)]
    · rw [eq_request_of_mem_send hq]
      exact body_removed c _
  · intro c c' s' n n' hkind q hq q' hq' hbody
    rw [eq_request_of_mem_send hq, eq_request_of_mem_send hq'] at hbody
    exact body_injective hkind hbody

/-- A revision with the lowest number, an identifier that has to be escaped and an environment that
is there twice. -/
def lowestNumber : DeployedRevision :=
  .under "a\"\\\n\x00é😀" (-9223372036854775808) ["prod", "", "prod"] "v"

def enabledPlane : Config.ControlPlane := { enabled := true, serviceUrl := "u" }

/-- The first request is refused and the second one is taken. -/
def secondTaken : Script := ⟨[.status 500], .status 200⟩

theorem bodies_readBack_lowestNumber :
    enabledPlane.enabled = true ∧
      (∃ q ∈ ((deployed [lowestNumber]).send Script.next enabledPlane secondTaken).requests,
        (Shape.list DeployedRevision.shape).ofText true q.body = .ok [lowestNumber]) ∧
      ∃ q ∈ ((removed ⟨"a", "re", "e"⟩).send Script.next {} secondTaken).requests,
        RemovedRevision.shape.ofText true q.body = .ok ⟨"a", "re", "e"⟩ ∧
          ∀ q' ∈ ((removed ⟨"ar", "e", "e"⟩).send Script.next {} secondTaken).requests,
            q.body ≠ q'.body := by
  obtain ⟨hdeployed, -, hremoved, hsame⟩ := bodies_readBack Script.next secondTaken
  obtain ⟨hne, hread⟩ := hdeployed enabledPlane [lowestNumber] rfl (List.cons_ne_nil _ _)
  obtain ⟨hne', hread'⟩ := hremoved {} "a" "re" "e" (by decide) (by decide) (by decide)
  obtain ⟨q, hq⟩ := List.exists_mem_of_ne_nil _ hne
  obtain ⟨q', hq'⟩ := List.exists_mem_of_ne_nil _ hne'
  refine ⟨rfl, ⟨q, hq, hread q hq⟩, q', hq', hread' q' hq', fun p hp hbody => ?_⟩
  have h := hsame {} {} secondTaken (removed ⟨"a", "re", "e"⟩) (removed ⟨"ar", "e", "e"⟩) rfl q' hq'
    p hp hbody
  exact absurd h (by decide)

/-- The text that a revision with three environments comes to. -/
example : ((deployed [.under "a1" (-7) ["prod", "", "prod"] "v"]).request {}).body =
    "[\x7b\"apiId\":\"a1\",\"revisionId\":-7,\"envInfo\":[\x7b\"name\":\"prod\",\"vhost\":\"v\"\x7d," ++
      "\x7b\"name\":\"\",\"vhost\":\"v\"\x7d,\x7b\"name\":\"prod\",\"vhost\":\"v\"\x7d]\x7d]" := by
  decide +kernel

end PlaneBridge.Delivery.Notification
