import PlaneBridge.Delivery.Notifier
import PlaneBridge.Proofs.Delivery.Attempt
import PlaneBridge.Proofs.Text.Base64

/-!
# The request of a notification

A message is not sent when the user's credentials do not fit into a header.  Base64 writes them with
letters, digits, three signs and nothing else, and all of these may stand in a header, so every
notification has its request: `request?_eq_some`.  Credentials are never the reason for a message
not being sent.

So a message is skipped for the reasons of `skip?` alone.  Otherwise it is handed over at least once,
`requests_send_ne_nil`, and whatever is handed over is its request, `eq_request_of_mem_send`.
-/

namespace PlaneBridge.Delivery

open Text.Base64

theorem isHeaderCharacter_of_isSymbol {c : Char} (hc : IsSymbol c) :
    isHeaderCharacter c = true := by
  have halphabet : alphabet.all isHeaderCharacter = true := by
    rw [alphabet_spelled]
    decide
  rcases hc with hc | rfl
  · exact List.all_eq_true.mp halphabet c hc
  · decide

/-- Whatever the user's name and password are, the header that carries them can be written. -/
theorem basicAuthorization_fits (username password : String) :
    HeaderRule.visible (basicAuthorization username password) = true := by
  have hword : "Basic ".toList.all isHeaderCharacter = true := by decide
  rw [HeaderRule.visible, basicAuthorization, String.toList_append, List.all_append, Bool.and_eq_true]
  refine ⟨hword, List.all_eq_true.mpr fun c hc => ?_⟩
  rw [String.toList_ofList] at hc
  exact isHeaderCharacter_of_isSymbol (encode_isSymbol _ c hc)

namespace Notification

theorem request?_eq_some (c : Config.ControlPlane) (n : Notification) :
    n.request? c = some (n.request c) :=
  if_pos (basicAuthorization_fits c.username c.password)

/-- Sending is delivering, unless there is a reason not to. -/
theorem send_of_skip?_eq_none {σ : Type} (next : Source σ) {c : Config.ControlPlane}
    {n : Notification} (h : n.skip? c = none) (s : σ) :
    n.send next c s = deliver next (n.request c) s := by
  have hrequest : n.requestUnder? .visible c = some (n.request c) := n.request?_eq_some c
  simp only [send, sendUnder, h, hrequest]

theorem send_of_skip?_eq_some {σ : Type} (next : Source σ) {c : Config.ControlPlane}
    {n : Notification} {reason : SkipReason} (h : n.skip? c = some reason) (s : σ) :
    n.send next c s = ⟨.skipped reason, [], [], s⟩ := by
  simp only [send, sendUnder, h]

/-! ## What sending comes to -/

section

variable {σ : Type} {next : Source σ} {c : Config.ControlPlane} {n : Notification} {s : σ}

/-- A message is skipped for the reason that it has and for no other one. -/
theorem outcome_send_eq_skipped {reason : SkipReason} :
    (n.send next c s).outcome = .skipped reason ↔ n.skip? c = some reason := by
  cases hskip : n.skip? c with
  | some reason' => simp [send_of_skip?_eq_some next hskip]
  | none =>
    obtain ⟨count, hcount, -, hattempts⟩ := deliver_repeats next (n.request c) s
    rw [send_of_skip?_eq_none next hskip]
    constructor
    · intro h
      rw [h] at hattempts
      exact absurd hattempts (Nat.ne_of_lt hcount)
    · intro h
      cases h

/-- A message that there is no reason to skip is handed over, and no other one is. -/
theorem requests_send_ne_nil : (n.send next c s).requests ≠ [] ↔ n.skip? c = none := by
  cases hskip : n.skip? c with
  | some reason => simp [send_of_skip?_eq_some next hskip]
  | none =>
    obtain ⟨count, hcount, hrequests, -⟩ := deliver_repeats next (n.request c) s
    rw [send_of_skip?_eq_none next hskip, hrequests]
    simp [Nat.ne_of_gt hcount]

/-- What is handed over is the request of the message. -/
theorem eq_request_of_mem_send {q : Request} (h : q ∈ (n.send next c s).requests) :
    q = n.request c := by
  have hskip : n.skip? c = none := requests_send_ne_nil.mp (List.ne_nil_of_mem h)
  obtain ⟨count, -, hrequests, -⟩ := deliver_repeats next (n.request c) s
  rw [send_of_skip?_eq_none next hskip, hrequests] at h
  exact List.eq_of_mem_replicate h

end

end Notification
end PlaneBridge.Delivery
