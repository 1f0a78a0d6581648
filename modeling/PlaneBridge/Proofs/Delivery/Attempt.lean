import PlaneBridge.Delivery.Attempt
import PlaneBridge.Delivery.Notifier

/-!
# The attempts of a delivery

What becomes of a delivery is decided by the replies that its source has next.  Replies that are no
acceptance are met one by one until the first acceptance or until no attempt is left, and these two
ends are `deliver_of_accepted` and `deliver_of_failed`.  By `Source.take_cases` there is no third.

`Source.take` says which replies a delivery has taken, so that the statements below fix how far the
source has moved as well as what has been sent and told.
-/

namespace PlaneBridge.Delivery

/-- The next replies of a source, so many of them, and the source behind them. -/
def Source.take {σ : Type} (next : Source σ) : Nat → σ → List Reply × σ
  | 0, s => ([], s)
  | count + 1, s =>
    let (reply, s) := next s
    let (replies, s) := Source.take next count s
    (reply :: replies, s)

/-- What is told of attempts that failed one after the other, so many others before them. -/
def failureNotices (r : Request) (attempts : Nat) (failed : List Reply) : List Notice :=
  failed.mapIdx fun i reply => failureNotice r (attempts + i + 1) reply

theorem isAccepted_iff {reply : Reply} : reply.isAccepted = true ↔ reply = .status 200 :=
  decide_eq_true_iff

section

variable {σ : Type} {next : Source σ}

theorem Source.take_succ (next : Source σ) (count : Nat) (s : σ) :
    Source.take next (count + 1) s =
      ((next s).1 :: (Source.take next count (next s).2).1,
        (Source.take next count (next s).2).2) :=
  rfl

/-- Taking replies that begin with one is taking that one and then the others. -/
theorem Source.take_eq_cons {count : Nat} {s s' : σ} {reply : Reply} {replies : List Reply} :
    Source.take next (count + 1) s = (reply :: replies, s') ↔
      (next s).1 = reply ∧ Source.take next count (next s).2 = (replies, s') := by
  rw [Source.take_succ, Prod.ext_iff, Prod.ext_iff]
  simp only [List.cons.injEq]
  exact and_assoc

theorem Source.take_append {first second : Nat} {s s' s'' : σ} {replies replies' : List Reply}
    (h : Source.take next first s = (replies, s'))
    (h' : Source.take next second s' = (replies', s'')) :
    Source.take next (first + second) s = (replies ++ replies', s'') := by
  induction first generalizing s replies with
  | zero =>
    obtain ⟨rfl, rfl⟩ := Prod.mk.inj h
    rw [Nat.zero_add]
    exact h'
  | succ first ih =>
    rw [Source.take_succ] at h
    obtain ⟨rfl, hs⟩ := Prod.mk.inj h
    rw [show first + 1 + second = first + second + 1 from by omega]
    exact Source.take_eq_cons.mpr ⟨rfl, ih (Prod.ext rfl hs)⟩

/-- Among the next replies there is an acceptance that only failures precede, or all fail. -/
theorem Source.take_cases (next : Source σ) (count : Nat) (s : σ) :
    (∃ failed s', failed.length < count ∧ (∀ reply ∈ failed, reply ≠ .status 200) ∧
        Source.take next (failed.length + 1) s = (failed ++ [.status 200], s')) ∨
      ∃ failed s', failed.length = count ∧ (∀ reply ∈ failed, reply ≠ .status 200) ∧
        Source.take next count s = (failed, s') := by
  induction count generalizing s with
  | zero => exact Or.inr ⟨[], s, rfl, by simp, rfl⟩
  | succ count ih =>
    by_cases hfirst : (next s).1 = .status 200
    · refine Or.inl ⟨[], (next s).2, Nat.succ_pos count, by simp, ?_⟩
      exact Source.take_eq_cons.mpr ⟨hfirst, rfl⟩
    · have hcons : ∀ failed : List Reply, (∀ reply ∈ failed, reply ≠ .status 200) →
          ∀ reply ∈ (next s).1 :: failed, reply ≠ .status 200 := by
        intro failed hfail reply hreply
        rcases List.mem_cons.mp hreply with rfl | hreply
        · exact hfirst
        · exact hfail reply hreply
      rcases ih (next s).2 with ⟨failed, s', hlt, hfail, htake⟩ | ⟨failed, s', hlen, hfail, htake⟩
      · refine Or.inl ⟨(next s).1 :: failed, s', Nat.succ_lt_succ hlt, hcons failed hfail, ?_⟩
        exact Source.take_eq_cons.mpr ⟨rfl, htake⟩
      · refine Or.inr ⟨(next s).1 :: failed, s', congrArg Nat.succ hlen, hcons failed hfail, ?_⟩
        exact Source.take_eq_cons.mpr ⟨rfl, htake⟩

/-! ## One attempt -/

theorem step_accepted (r : Request) (attempts : Nat) :
    step r attempts (.status 200) =
      (.ended (.delivered (attempts + 1)), [.requestAccepted r.method r.url (attempts + 1)]) :=
  rfl

theorem step_failed (r : Request) {attempts : Nat} {reply : Reply} (hfail : reply ≠ .status 200)
    (hlt : attempts + 1 < maxAttempts) :
    step r attempts reply =
      (.underWay (attempts + 1), [failureNotice r (attempts + 1) reply]) := by
  have hrefused : ¬ reply.isAccepted = true := fun h => hfail (isAccepted_iff.mp h)
  simp only [step, if_neg hrefused, if_pos hlt]

theorem step_failed_last (r : Request) {attempts : Nat} {reply : Reply}
    (hfail : reply ≠ .status 200) (hlast : attempts + 1 = maxAttempts) :
    step r attempts reply =
      (.ended (.exhausted maxAttempts),
        [failureNotice r (attempts + 1) reply, .requestGivenUp r.method r.url maxAttempts]) := by
  have hrefused : ¬ reply.isAccepted = true := fun h => hfail (isAccepted_iff.mp h)
  have hnone : ¬ attempts + 1 < maxAttempts := by omega
  simp only [step, if_neg hrefused, if_neg hnone]
  rw [hlast]

theorem failureNotices_cons (r : Request) (attempts : Nat) (reply : Reply) (failed : List Reply) :
    failureNotices r attempts (reply :: failed) =
      failureNotice r (attempts + 1) reply :: failureNotices r (attempts + 1) failed := by
  have hshift : ∀ i, attempts + (i + 1) + 1 = attempts + 1 + i + 1 := fun i => by omega
  simp only [failureNotices, List.mapIdx_cons, hshift, Nat.add_zero]

/-! ## A whole delivery -/

theorem deliverFrom_ended {r : Request} {attempts left : Nat} {s : σ} {outcome : Outcome}
    {notices : List Notice}
    (hstep : step r attempts (next s).1 = (.ended outcome, notices)) :
    deliverFrom next r attempts (left + 1) s = ⟨outcome, [r], notices, (next s).2⟩ := by
  simp only [deliverFrom, hstep]

theorem deliverFrom_underWay {r : Request} {attempts left : Nat} {s : σ} {notices : List Notice}
    (hstep : step r attempts (next s).1 = (.underWay (attempts + 1), notices)) :
    deliverFrom next r attempts (left + 1) s =
      { deliverFrom next r (attempts + 1) left (next s).2 with
        requests := r :: (deliverFrom next r (attempts + 1) left (next s).2).requests
        notices := notices ++ (deliverFrom next r (attempts + 1) left (next s).2).notices } := by
  simp only [deliverFrom, hstep]

theorem deliverFrom_of_accepted {r : Request} {failed : List Reply}
    (hfail : ∀ reply ∈ failed, reply ≠ .status 200) :
    ∀ {attempts left : Nat} {s s' : σ}, attempts + left = maxAttempts → failed.length < left →
      Source.take next (failed.length + 1) s = (failed ++ [.status 200], s') →
      deliverFrom next r attempts left s =
        ⟨.delivered (attempts + failed.length + 1), List.replicate (failed.length + 1) r,
          failureNotices r attempts failed ++
            [.requestAccepted r.method r.url (attempts + failed.length + 1)], s'⟩ := by
  -- The attempts made and those left add up to all there are, which is what makes the loop, that
  -- counts down, agree with `step`, that counts up.
  induction failed with
  | nil =>
    intro attempts left s s' hsum hlt htake
    obtain ⟨left, rfl⟩ : ∃ n, left = n + 1 := ⟨left - 1, by simp at hlt; omega⟩
    obtain ⟨hreply, hrest⟩ := Source.take_eq_cons.mp htake
    have hs : (next s).2 = s' := congrArg Prod.snd hrest
    rw [deliverFrom_ended (by rw [hreply, step_accepted]), hs]
    rfl
  | cons reply failed ih =>
    intro attempts left s s' hsum hlt htake
    rw [List.length_cons] at hlt
    obtain ⟨left, rfl⟩ : ∃ n, left = n + 1 := ⟨left - 1, by omega⟩
    obtain ⟨hreply, hrest⟩ := Source.take_eq_cons.mp htake
    have hnext : attempts + 1 < maxAttempts := by omega
    have hstep := step_failed r (hfail reply List.mem_cons_self) hnext
    rw [deliverFrom_underWay (by rw [hreply, hstep]),
      ih (fun q hq => hfail q (List.mem_cons_of_mem reply hq)) (by omega) (by omega) hrest,
      failureNotices_cons]
    have hcount : attempts + 1 + failed.length + 1 = attempts + (failed.length + 1) + 1 := by omega
    simp only [List.length_cons, hcount, List.replicate_succ, List.cons_append, List.nil_append]

theorem deliverFrom_of_failed {r : Request} {failed : List Reply}
    (hfail : ∀ reply ∈ failed, reply ≠ .status 200) :
    ∀ {attempts left : Nat} {s s' : σ}, attempts + left = maxAttempts → 0 < left →
      failed.length = left → Source.take next left s = (failed, s') →
      deliverFrom next r attempts left s =
        ⟨.exhausted maxAttempts, List.replicate left r,
          failureNotices r attempts failed ++ [.requestGivenUp r.method r.url maxAttempts],
          s'⟩ := by
  induction failed with
  | nil =>
    intro attempts left s s' _ hpos hlen _
    simp only [List.length_nil] at hlen
    omega
  | cons reply failed ih =>
    intro attempts left s s' hsum _ hlen htake
    rw [List.length_cons] at hlen
    subst hlen
    obtain ⟨hreply, hrest⟩ := Source.take_eq_cons.mp htake
    have hfirst := hfail reply List.mem_cons_self
    -- The last failure gives up where all before it go on.
    by_cases hlast : failed = []
    · subst hlast
      have hstep := step_failed_last r hfirst hsum
      have hs : (next s).2 = s' := congrArg Prod.snd hrest
      rw [deliverFrom_ended (by rw [hreply, hstep]), hs]
      rfl
    · have hpos : 0 < failed.length := List.length_pos_iff.mpr hlast
      have hnext : attempts + 1 < maxAttempts := by omega
      have hstep := step_failed r hfirst hnext
      rw [deliverFrom_underWay (by rw [hreply, hstep]),
        ih (fun q hq => hfail q (List.mem_cons_of_mem reply hq)) (by omega) hpos rfl hrest,
        failureNotices_cons]
      simp only [List.replicate_succ, List.cons_append, List.nil_append]

theorem deliver_of_accepted {r : Request} {failed : List Reply} {s s' : σ}
    (hfail : ∀ reply ∈ failed, reply ≠ .status 200) (hlt : failed.length < maxAttempts)
    (htake : Source.take next (failed.length + 1) s = (failed ++ [.status 200], s')) :
    deliver next r s =
      ⟨.delivered (failed.length + 1), List.replicate (failed.length + 1) r,
        failureNotices r 0 failed ++ [.requestAccepted r.method r.url (failed.length + 1)],
        s'⟩ := by
  rw [deliver, deliverFrom_of_accepted hfail (Nat.zero_add maxAttempts) hlt htake, Nat.zero_add]

theorem deliver_of_failed {r : Request} {failed : List Reply} {s s' : σ}
    (hfail : ∀ reply ∈ failed, reply ≠ .status 200) (hlen : failed.length = maxAttempts)
    (htake : Source.take next maxAttempts s = (failed, s')) :
    deliver next r s =
      ⟨.exhausted maxAttempts, List.replicate maxAttempts r,
        failureNotices r 0 failed ++ [.requestGivenUp r.method r.url maxAttempts], s'⟩ :=
  deliverFrom_of_failed hfail (Nat.zero_add maxAttempts) (by decide) hlen htake

/-- A delivery hands over its request once at least and nothing else. -/
theorem deliver_repeats (next : Source σ) (r : Request) (s : σ) :
    ∃ count, 0 < count ∧ (deliver next r s).requests = List.replicate count r ∧
      (deliver next r s).outcome.attempts = count := by
  rcases Source.take_cases next maxAttempts s with
    ⟨failed, s', hlt, hfail, htake⟩ | ⟨failed, s', hlen, hfail, htake⟩
  · rw [deliver_of_accepted hfail hlt htake]
    exact ⟨failed.length + 1, Nat.succ_pos _, rfl, rfl⟩
  · rw [deliver_of_failed hfail hlen htake]
    exact ⟨maxAttempts, by decide, rfl, rfl⟩

end

/-! ## Two kinds of sources -/

/-- Replies without end, each of them at its place. -/
def Source.ofStream (replies : Nat → Reply) : Source Nat := fun n => (replies n, n + 1)

theorem Source.take_ofStream (replies : Nat → Reply) (count n : Nat) :
    Source.take (Source.ofStream replies) count n =
      ((List.range' n count).map replies, n + count) := by
  induction count generalizing n with
  | zero => rfl
  | succ count ih =>
    rw [Source.take_succ, ih]
    simp only [Source.ofStream, List.range'_succ, List.map_cons]
    rw [show n + 1 + count = n + (count + 1) from by omega]

theorem Script.take_next (queued rest : List Reply) (fallback : Reply) :
    Source.take Script.next queued.length ⟨queued ++ rest, fallback⟩ =
      (queued, ⟨rest, fallback⟩) := by
  induction queued with
  | nil => rfl
  | cons reply queued ih =>
    exact Source.take_eq_cons.mpr ⟨rfl, ih⟩

end PlaneBridge.Delivery
