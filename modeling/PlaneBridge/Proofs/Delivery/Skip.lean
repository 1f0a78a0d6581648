import PlaneBridge.Proofs.Delivery.Attempt
import PlaneBridge.Proofs.Delivery.Request
import PlaneBridge.Proofs.Text.Utf8

/-!
# Which messages are sent

Which texts may stand in a header is for the transport to say.  All that has to be known of it is
that it takes visible ASCII characters and spaces, `HeaderRule.TakesVisible`.  The authorization is
made of these, so under every such rule a message fares as it does under the narrowest one, which is
that of `send`: `sendUnder_eq_send`.

What is left are the reasons that a message has in itself.  `messages_sentUnless` says of both kinds
of messages which of them are skipped, and for what reason, and that all others are sent.
-/

namespace PlaneBridge.Delivery

/-! ## Transports with a rule of their own -/

/-- Whether every text is taken whose bytes are visible ASCII characters and spaces. -/
def HeaderRule.TakesVisible (rule : HeaderRule) : Prop :=
  ∀ value : String, (∀ b ∈ value.toUTF8.toList, 0x20 ≤ b ∧ b ≤ 0x7E) → rule value = true

theorem visible_of_isHeaderCharacter {value : String} (h : HeaderRule.visible value = true) :
    ∀ b ∈ value.toUTF8.toList, 0x20 ≤ b ∧ b ≤ 0x7E := by
  have hrange : ∀ c ∈ value.toList, 32 ≤ c.toNat ∧ c.toNat ≤ 126 := by
    intro c hc
    have hvisible := List.all_eq_true.mp h c hc
    rw [isHeaderCharacter, Bool.and_eq_true, decide_eq_true_eq, decide_eq_true_eq] at hvisible
    exact hvisible
  have hascii : ∀ c ∈ value.toList, c.toNat < 128 := by
    intro c hc
    have hhigh := (hrange c hc).2
    omega
  intro b hb
  rw [Text.Utf8.bytes_of_ascii hascii] at hb
  obtain ⟨c, hc, rfl⟩ := List.mem_map.mp hb
  obtain ⟨hlow, hhigh⟩ := hrange c hc
  have hsame : c.toUInt8.toNat = c.toNat :=
    Nat.mod_eq_of_lt (Nat.lt_of_le_of_lt hhigh (by decide))
  rw [UInt8.le_iff_toNat_le, UInt8.le_iff_toNat_le, hsame]
  exact ⟨hlow, hhigh⟩

namespace Notification

variable {σ : Type} {rule : HeaderRule} {c : Config.ControlPlane} {n : Notification}

theorem sendUnder_eq_send (h : rule.TakesVisible) (next : Source σ) (c : Config.ControlPlane)
    (n : Notification) (s : σ) : n.sendUnder rule next c s = n.send next c s := by
  cases hskip : n.skip? c with
  | some reason =>
    rw [send_of_skip?_eq_some next hskip]
    simp only [sendUnder, hskip]
  | none =>
    have htaken : rule (basicAuthorization c.username c.password) = true :=
      h _ (visible_of_isHeaderCharacter (basicAuthorization_fits c.username c.password))
    rw [send_of_skip?_eq_none next hskip]
    simp only [sendUnder, hskip, requestUnder?, if_pos htaken]

/-! ## Reasons -/

theorem skip?_deployed_cons (c : Config.ControlPlane) (r : DeployedRevision)
    (revisions : List DeployedRevision) :
    (deployed (r :: revisions)).skip? c = if c.enabled then none else some .disabled := by
  cases henabled : c.enabled <;> simp [skip?, henabled]

theorem skip?_removed (c : Config.ControlPlane) (apiUUID revisionUUID environment : String) :
    (removed ⟨apiUUID, revisionUUID, environment⟩).skip? c =
      if apiUUID = "" ∨ revisionUUID = "" ∨ environment = "" then some .missingField else none :=
  rfl

theorem skip?_ne_encodingFailed (c : Config.ControlPlane) (n : Notification) :
    n.skip? c ≠ some .encodingFailed := by
  cases n with
  | deployed revisions =>
    cases revisions with
    | nil => exact nofun
    | cons r revisions =>
      rw [skip?_deployed_cons]
      split <;> exact nofun
  | removed r =>
    rw [skip?_removed]
    split <;> exact nofun

/-- Whatever the credentials are, they are never the reason for a message not being sent.  Revisions
that have been deployed are skipped when there are none of them, and else when the control plane is
disabled; a revision that has been taken away is skipped when its message lacks a part. -/
theorem messages_sentUnless (h : rule.TakesVisible) (next : Source σ) (c : Config.ControlPlane)
    (s : σ) :
    (∀ n : Notification, (n.sendUnder rule next c s).outcome ≠ .skipped .encodingFailed) ∧
    (∀ revisions : List DeployedRevision,
      (((deployed revisions).sendUnder rule next c s).outcome = .skipped .nothingToSend ↔
        revisions = []) ∧
      (((deployed revisions).sendUnder rule next c s).outcome = .skipped .disabled ↔
        revisions ≠ [] ∧ c.enabled = false) ∧
      (((deployed revisions).sendUnder rule next c s).requests ≠ [] ↔
        revisions ≠ [] ∧ c.enabled = true)) ∧
    ∀ apiUUID revisionUUID environment : String,
      (((removed ⟨apiUUID, revisionUUID, environment⟩).sendUnder rule next c s).outcome =
          .skipped .missingField ↔
        apiUUID = "" ∨ revisionUUID = "" ∨ environment = "") ∧
      (((removed ⟨apiUUID, revisionUUID, environment⟩).sendUnder rule next c s).requests ≠ [] ↔
        apiUUID ≠ "" ∧ revisionUUID ≠ "" ∧ environment ≠ "") := by
  refine ⟨fun n => ?_, fun revisions => ?_, fun apiUUID revisionUUID environment => ?_⟩
  · rw [sendUnder_eq_send h, Ne, outcome_send_eq_skipped]
    exact skip?_ne_encodingFailed c n
  · rw [sendUnder_eq_send h, outcome_send_eq_skipped, outcome_send_eq_skipped,
      requests_send_ne_nil]
    cases revisions with
    | nil => simp [skip?]
    | cons r revisions =>
      rw [skip?_deployed_cons]
      cases c.enabled <;> simp
  · rw [sendUnder_eq_send h, outcome_send_eq_skipped, requests_send_ne_nil, skip?_removed]
    by_cases hmissing : apiUUID = "" ∨ revisionUUID = "" ∨ environment = ""
    · rw [if_pos hmissing]
      refine ⟨iff_of_true rfl hmissing, iff_of_false nofun fun hall => ?_⟩
      exact absurd hmissing (by simpa only [not_or] using hall)
    · rw [if_neg hmissing]
      exact ⟨iff_of_false nofun hmissing, iff_of_true rfl (by simpa only [not_or] using hmissing)⟩

end Notification

/-! ## A transport that refuses control characters -/

/-- The rule by which no control character is taken but the tab. -/
def noControls : HeaderRule := fun value =>
  value.toUTF8.toList.all fun b => b = 0x09 || (0x20 ≤ b && b ≠ 0x7F)

theorem noControls_takesVisible : noControls.TakesVisible := by
  intro value h
  refine List.all_eq_true.mpr fun b hb => ?_
  obtain ⟨hlow, hhigh⟩ := h b hb
  have hdelete : b ≠ 0x7F := by
    rintro rfl
    exact absurd hhigh (by decide)
  simp [hlow, hdelete]

/-- A disabled control plane with credentials of which a header can hold none. -/
def brokenLines : Config.ControlPlane where
  username := "a\r\nb"
  password := "\x00\n"

theorem Notification.messages_sentUnless_brokenLines :
    noControls.TakesVisible ∧ noControls brokenLines.username = false ∧
      ((removed ⟨"a", "r", "e"⟩).sendUnder noControls Script.next brokenLines
        ⟨[], .status 200⟩).requests ≠ [] ∧
      ((deployed [{}]).sendUnder noControls Script.next brokenLines
        ⟨[], .status 200⟩).outcome = .skipped .disabled := by
  obtain ⟨-, hdeployed, hremoved⟩ :=
    messages_sentUnless noControls_takesVisible Script.next brokenLines ⟨[], .status 200⟩
  exact ⟨noControls_takesVisible, by decide +kernel, (hremoved "a" "r" "e").2.mpr (by decide),
    (hdeployed [{}]).2.1.mpr (by decide)⟩

end PlaneBridge.Delivery
