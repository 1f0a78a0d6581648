import Mathlib.Data.List.Forall2
import PlaneBridge.Proofs.Delivery.Attempt
import PlaneBridge.Proofs.Delivery.Request

/-!
# Sessions

A session is one notifier at work: notifications are sent one after the other over the same replies.
What is handed to the transport, what is told and which replies are used up is collected over the
whole session, without a mark where one notification ends and the next begins.

`Session.run_blocks` finds these marks.  The requests, the replies and the notices of a session all
fall into consecutive blocks, one for each notification, and every block is lawful: it holds as many
requests as its outcome counts, all the same, ends with the first acceptance or with the third
failure, and its part of the log is the transcript of its replies.
-/

namespace PlaneBridge.Delivery

/-! ## The law of a block -/

def failureLine (r : Request) (attempt : Nat) : Reply → String
  | .status code =>
    "WARN Error response status code " ++ decimal code ++ " from " ++ r.url ++ " for attempt " ++
      decimal attempt
  | .failure reason =>
    "WARN Error response from " ++ r.url ++ " for attempt " ++ decimal attempt ++ ": " ++ reason

/-- One line for each of the attempts, in order, with its own number and what came back. -/
def failureLines (r : Request) (failed : List Reply) : List String :=
  failed.mapIdx fun i reply => failureLine r (i + 1) reply

def acceptanceLine (r : Request) (attempt : Nat) : String :=
  "INFO " ++ r.method.name ++ " " ++ r.url ++ " accepted by control plane on attempt " ++
    decimal attempt

def givingUpLine (r : Request) (attempts : Nat) : String :=
  "ERROR Giving up on " ++ r.method.name ++ " " ++ r.url ++ " after " ++ decimal attempts ++
    " attempts"

/-- What one notification has brought about: the requests handed over, the replies to them, what has
been told meanwhile, and the outcome. -/
structure Block where
  requests : List Request
  replies : List Reply
  notices : List Notice
  outcome : Outcome

def Block.Lawful (c : Config.ControlPlane) (n : Notification) (b : Block) : Prop :=
  b.requests.length = b.outcome.attempts ∧ b.replies.length = b.outcome.attempts ∧
    match b.outcome with
    | .skipped reason => n.skip? c = some reason ∧ b.notices = []
    | .delivered k =>
      1 ≤ k ∧ k ≤ 3 ∧ n.skip? c = none ∧ ∃ r failed, n.request? c = some r ∧
        (∀ q ∈ b.requests, q = r) ∧ (∀ reply ∈ failed, reply ≠ .status 200) ∧
        b.replies = failed ++ [.status 200] ∧
        b.notices.map Notice.line = failureLines r failed ++ [acceptanceLine r k]
    | .exhausted k =>
      k = 3 ∧ n.skip? c = none ∧ ∃ r, n.request? c = some r ∧ (∀ q ∈ b.requests, q = r) ∧
        (∀ reply ∈ b.replies, reply ≠ .status 200) ∧
        b.notices.map Notice.line = failureLines r b.replies ++ [givingUpLine r k]

/-! ## Sessions -/

/-- What has been done so far, and the source of the replies that are left. -/
structure Session (σ : Type) where
  requests : List Request
  notices : List Notice
  outcomes : List Outcome
  rest : σ

namespace Session

def start {σ : Type} (s : σ) : Session σ := ⟨[], [], [], s⟩

def send {σ : Type} (next : Source σ) (c : Config.ControlPlane) (session : Session σ)
    (n : Notification) : Session σ :=
  let sent := n.send next c session.rest
  { requests := session.requests ++ sent.requests
    notices := session.notices ++ sent.notices
    outcomes := session.outcomes ++ [sent.outcome]
    rest := sent.rest }

def run {σ : Type} (next : Source σ) (c : Config.ControlPlane) (s : σ)
    (calls : List Notification) : Session σ :=
  calls.foldl (send next c) (start s)

end Session

/-! ## Lines of the log -/

theorem failureNotice_line (r : Request) (attempt : Nat) (reply : Reply) :
    (failureNotice r attempt reply).line = failureLine r attempt reply := by
  cases reply with
  | status code =>
    show "WARN" ++ " " ++ ("Error response status code " ++ decimal code ++ " from " ++ r.url ++
        " for attempt " ++ decimal attempt) =
      "WARN" ++ " " ++ "Error response status code " ++ decimal code ++ " from " ++ r.url ++
        " for attempt " ++ decimal attempt
    simp only [String.append_assoc]
  | failure reason =>
    show "WARN" ++ " " ++ ("Error response from " ++ r.url ++ " for attempt " ++ decimal attempt ++
        ": " ++ reason) =
      "WARN" ++ " " ++ "Error response from " ++ r.url ++ " for attempt " ++ decimal attempt ++
        ": " ++ reason
    simp only [String.append_assoc]

theorem failureNotices_lines (r : Request) (failed : List Reply) :
    (failureNotices r 0 failed).map Notice.line = failureLines r failed := by
  simp only [failureNotices, failureLines, List.mapIdx_eq_zipIdx_map, List.map_map,
    Function.comp_def, failureNotice_line, Nat.zero_add]

theorem requestAccepted_line (r : Request) (attempt : Nat) :
    (Notice.requestAccepted r.method r.url attempt).line = acceptanceLine r attempt := by
  show "INFO" ++ " " ++ (r.method.name ++ " " ++ r.url ++
      " accepted by control plane on attempt " ++ decimal attempt) =
    "INFO" ++ " " ++ r.method.name ++ " " ++ r.url ++
      " accepted by control plane on attempt " ++ decimal attempt
  simp only [String.append_assoc]

theorem requestGivenUp_line (r : Request) (attempts : Nat) :
    (Notice.requestGivenUp r.method r.url attempts).line = givingUpLine r attempts := by
  show "ERROR" ++ " " ++ ("Giving up on " ++ r.method.name ++ " " ++ r.url ++ " after " ++
      decimal attempts ++ " attempts") =
    "ERROR" ++ " " ++ "Giving up on " ++ r.method.name ++ " " ++ r.url ++ " after " ++
      decimal attempts ++ " attempts"
  simp only [String.append_assoc]

/-! ## One notification -/

section

variable {σ : Type} {next : Source σ} {c : Config.ControlPlane} {n : Notification}

theorem lawful_of_accepted {r : Request} {failed : List Reply} (hskip : n.skip? c = none)
    (hr : n.request? c = some r) (hfail : ∀ reply ∈ failed, reply ≠ .status 200)
    (hlt : failed.length < maxAttempts) :
    Block.Lawful c n
      ⟨List.replicate (failed.length + 1) r, failed ++ [.status 200],
        failureNotices r 0 failed ++ [.requestAccepted r.method r.url (failed.length + 1)],
        .delivered (failed.length + 1)⟩ := by
  refine ⟨List.length_replicate, List.length_append, Nat.succ_pos _, hlt, hskip, r, failed, hr,
    fun q hq => List.eq_of_mem_replicate hq, hfail, rfl, ?_⟩
  rw [List.map_append, failureNotices_lines, List.map_singleton, requestAccepted_line]

theorem lawful_of_failed {r : Request} {failed : List Reply} (hskip : n.skip? c = none)
    (hr : n.request? c = some r) (hfail : ∀ reply ∈ failed, reply ≠ .status 200)
    (hlen : failed.length = maxAttempts) :
    Block.Lawful c n
      ⟨List.replicate maxAttempts r, failed,
        failureNotices r 0 failed ++ [.requestGivenUp r.method r.url maxAttempts],
        .exhausted maxAttempts⟩ := by
  refine ⟨List.length_replicate, hlen, rfl, hskip, r, hr,
    fun q hq => List.eq_of_mem_replicate hq, hfail, ?_⟩
  rw [List.map_append, failureNotices_lines, List.map_singleton, requestGivenUp_line]

/-- A notification takes the replies of a lawful block from the source and no others. -/
theorem send_lawful (next : Source σ) (c : Config.ControlPlane) (n : Notification) (s : σ) :
    ∃ replies, Source.take next replies.length s = (replies, (n.send next c s).rest) ∧
      Block.Lawful c n
        ⟨(n.send next c s).requests, replies, (n.send next c s).notices,
          (n.send next c s).outcome⟩ := by
  cases hskip : n.skip? c with
  | some reason =>
    rw [Notification.send_of_skip?_eq_some next hskip]
    exact ⟨[], rfl, rfl, rfl, hskip, rfl⟩
  | none =>
    have hr := n.request?_eq_some c
    rw [Notification.send_of_skip?_eq_none next hskip]
    rcases Source.take_cases next maxAttempts s with
      ⟨failed, s', hlt, hfail, htake⟩ | ⟨failed, s', hlen, hfail, htake⟩
    · rw [deliver_of_accepted hfail hlt htake]
      refine ⟨failed ++ [.status 200], ?_, lawful_of_accepted hskip hr hfail hlt⟩
      rw [List.length_append]
      exact htake
    · rw [deliver_of_failed hfail hlen htake]
      refine ⟨failed, ?_, lawful_of_failed hskip hr hfail hlen⟩
      rw [hlen]
      exact htake

end

/-! ## A whole session -/

namespace Session

variable {σ : Type} {next : Source σ}

/-- What a session has done after so many blocks more. -/
structure Extends (next : Source σ) (before after : Session σ) (blocks : List Block) : Prop where
  requests : after.requests = before.requests ++ blocks.flatMap Block.requests
  notices : after.notices = before.notices ++ blocks.flatMap Block.notices
  outcomes : after.outcomes = before.outcomes ++ blocks.map Block.outcome
  replies : Source.take next (blocks.flatMap Block.replies).length before.rest =
    (blocks.flatMap Block.replies, after.rest)

theorem Extends.refl (next : Source σ) (session : Session σ) : Extends next session session [] := by
  constructor <;> simp [Source.take]

theorem Extends.cons {first second third : Session σ} {b : Block} {blocks : List Block}
    (h : Extends next first second [b]) (h' : Extends next second third blocks) :
    Extends next first third (b :: blocks) := by
  obtain ⟨hrequests, hnotices, houtcomes, hreplies⟩ := h
  simp only [List.flatMap_cons, List.flatMap_nil, List.append_nil, List.map_cons,
    List.map_nil] at hrequests hnotices houtcomes hreplies
  constructor
  · rw [h'.requests, hrequests, List.flatMap_cons, List.append_assoc]
  · rw [h'.notices, hnotices, List.flatMap_cons, List.append_assoc]
  · rw [h'.outcomes, houtcomes, List.map_cons, List.append_assoc, List.singleton_append]
  · rw [List.flatMap_cons, List.length_append]
    exact Source.take_append hreplies h'.replies

/-- One notification extends a session by one lawful block. -/
theorem send_extends (next : Source σ) (c : Config.ControlPlane) (session : Session σ)
    (n : Notification) :
    ∃ b, Block.Lawful c n b ∧ Extends next session (session.send next c n) [b] := by
  obtain ⟨replies, htake, hlawful⟩ := send_lawful next c n session.rest
  refine ⟨_, hlawful, ?_⟩
  constructor <;> simp only [send, List.flatMap_cons, List.flatMap_nil, List.append_nil,
    List.map_cons, List.map_nil]
  exact htake

theorem foldl_send_extends (next : Source σ) (c : Config.ControlPlane)
    (calls : List Notification) (session : Session σ) :
    ∃ blocks, List.Forall₂ (Block.Lawful c) calls blocks ∧
      Extends next session (calls.foldl (send next c) session) blocks := by
  induction calls generalizing session with
  | nil => exact ⟨[], List.Forall₂.nil, Extends.refl next session⟩
  | cons n calls ih =>
    obtain ⟨b, hb, hfirst⟩ := send_extends next c session n
    obtain ⟨blocks, hblocks, hrest⟩ := ih (session.send next c n)
    exact ⟨b :: blocks, List.Forall₂.cons hb hblocks, hfirst.cons hrest⟩

/-- A session falls into lawful blocks, one for each notification, whatever the replies are. -/
theorem run_blocks (replies : Nat → Reply) (c : Config.ControlPlane) (calls : List Notification) :
    ∃ blocks, List.Forall₂ (Block.Lawful c) calls blocks ∧
      (run (.ofStream replies) c 0 calls).requests = blocks.flatMap Block.requests ∧
      (List.range (run (.ofStream replies) c 0 calls).rest).map replies =
        blocks.flatMap Block.replies ∧
      (run (.ofStream replies) c 0 calls).notices = blocks.flatMap Block.notices ∧
      (run (.ofStream replies) c 0 calls).outcomes = blocks.map Block.outcome := by
  obtain ⟨blocks, hlawful, hextends⟩ :=
    foldl_send_extends (.ofStream replies) c calls (start 0)
  obtain ⟨hreplies, hrest⟩ := Prod.ext_iff.mp
    ((Source.take_ofStream replies _ 0).symm.trans hextends.replies)
  simp only [Nat.zero_add] at hrest
  refine ⟨blocks, hlawful, hextends.requests, ?_, hextends.notices, hextends.outcomes⟩
  rw [run, ← hrest, List.range_eq_range']
  exact hreplies

end Session
end PlaneBridge.Delivery
