import PlaneBridge.Proofs.Catalog.KeyManager
import PlaneBridge.Proofs.Json.FreeForm

/-!
# Batches of key managers

Key managers are handed over one by one to the same resolver, which may answer differently each time
it is asked.  `KeyManager.call` is what one of them makes known: its record, the questions that it
puts to the resolver, and what it tells.  All a call needs to know of the calls before it is how
often the resolver has been asked, so a batch comes to its `calls`.

A key manager whose settings cannot be encoded asks nothing.  So it is invisible to the others: to
take such key managers out of a batch, or to put more of them in, changes no call but their own.
This is `batch_isolated`, by induction on the batch with the number of questions general.
-/

namespace PlaneBridge.Catalog

open Tenant

/-! ## Settings that cannot be encoded -/

theorem bind_eq_error {ε α β : Type} {x : Except ε α} {f : α → Except ε β} {e : ε}
    (h : x >>= f = .error e) : x = .error e ∨ ∃ a, x = .ok a ∧ f a = .error e := by
  cases x with
  | error e' =>
    cases h
    exact .inl rfl
  | ok a => exact .inr ⟨a, rfl, h⟩

namespace Setting

/-- At some depth the setting has a part that is at fault: one that refuses to be encoded, or a key
that has no name. -/
inductive Complains : Setting → Error → Prop
  | refused {reason : String} : Complains (.failing reason) (.refused reason)
  | item {items : List Setting} {s : Setting} {e : Error} (hs : s ∈ items) (h : Complains s e) :
      Complains (.list items) e
  | key {entries : List (Key × Setting)} {key : Key} {s : Setting} {e : Error}
      (hs : (key, s) ∈ entries) (h : key.name = .error e) : Complains (.map entries) e
  | entry {entries : List (Key × Setting)} {key : Key} {s : Setting} {e : Error}
      (hs : (key, s) ∈ entries) (h : Complains s e) : Complains (.map entries) e

mutual

theorem complains_of_value {e : Error} : (s : Setting) → s.value = .error e → s.Complains e
  | .plain _, h => by cases h
  | .failing reason, h => by
    cases h
    exact .refused
  | .list items, h => by
    rw [value] at h
    rcases bind_eq_error h with h | ⟨vs, -, h⟩
    · obtain ⟨s, hs, hcomplains⟩ := complains_of_values items h
      exact .item hs hcomplains
    · cases h
  | .map entries, h => by
    rw [value] at h
    rcases bind_eq_error h with h | ⟨members, -, h⟩
    · exact complains_of_members entries h
    · cases h

theorem complains_of_values {e : Error} : (items : List Setting) → values items = .error e →
    ∃ s ∈ items, s.Complains e
  | [], h => by cases h
  | s :: items, h => by
    rw [values] at h
    rcases bind_eq_error h with h | ⟨v, -, h⟩
    · exact ⟨s, List.mem_cons_self, complains_of_value s h⟩
    rcases bind_eq_error h with h | ⟨vs, -, h⟩
    · obtain ⟨s', hs', hcomplains⟩ := complains_of_values items h
      exact ⟨s', List.mem_cons_of_mem s hs', hcomplains⟩
    · cases h

theorem complains_of_members {e : Error} : (entries : List (Key × Setting)) →
    members entries = .error e → (Setting.map entries).Complains e
  | [], h => by cases h
  | (key, s) :: entries, h => by
    rw [members] at h
    rcases bind_eq_error h with h | ⟨name, -, h⟩
    · exact .key List.mem_cons_self h
    rcases bind_eq_error h with h | ⟨v, -, h⟩
    · exact .entry List.mem_cons_self (complains_of_value s h)
    rcases bind_eq_error h with h | ⟨rest, -, h⟩
    · cases complains_of_members entries h with
      | key hs hname => exact .key (List.mem_cons_of_mem _ hs) hname
      | entry hs hcomplains => exact .entry (List.mem_cons_of_mem _ hs) hcomplains
    · cases h

end

theorem exists_value_of_values {items : List Setting} {vs : List Json.Value}
    (h : values items = .ok vs) : ∀ s ∈ items, ∃ v, s.value = .ok v := by
  induction items generalizing vs with
  | nil => exact fun s hs => absurd hs List.not_mem_nil
  | cons s items ih =>
    rw [values] at h
    obtain ⟨v, hv, h⟩ := Json.exists_of_bind_eq_ok h
    obtain ⟨rest, hrest, -⟩ := Json.exists_of_bind_eq_ok h
    exact List.forall_mem_cons.mpr ⟨⟨v, hv⟩, ih hrest⟩

theorem exists_value_of_members {entries : List (Key × Setting)} {ms : List (String × Json.Value)}
    (h : members entries = .ok ms) :
    ∀ entry ∈ entries, (∃ name, entry.1.name = .ok name) ∧ ∃ v, entry.2.value = .ok v := by
  induction entries generalizing ms with
  | nil => exact fun entry hentry => absurd hentry List.not_mem_nil
  | cons entry entries ih =>
    obtain ⟨key, s⟩ := entry
    rw [members] at h
    obtain ⟨name, hname, h⟩ := Json.exists_of_bind_eq_ok h
    obtain ⟨v, hv, h⟩ := Json.exists_of_bind_eq_ok h
    obtain ⟨rest, hrest, -⟩ := Json.exists_of_bind_eq_ok h
    exact List.forall_mem_cons.mpr ⟨⟨⟨name, hname⟩, v, hv⟩, ih hrest⟩

/-- A part that is at fault, at whatever depth, leaves the whole without a value. -/
theorem Complains.value_ne_ok {s : Setting} {e : Error} (h : s.Complains e) (v : Json.Value) :
    s.value ≠ .ok v := by
  induction h generalizing v with
  | refused => exact fun hv => nomatch hv
  | @item items s e hs _ ih =>
    intro hv
    rw [value] at hv
    obtain ⟨vs, hvs, -⟩ := Json.exists_of_bind_eq_ok hv
    obtain ⟨w, hw⟩ := exists_value_of_values hvs s hs
    exact ih w hw
  | @key entries key s e hs hname =>
    intro hv
    rw [value] at hv
    obtain ⟨ms, hms, -⟩ := Json.exists_of_bind_eq_ok hv
    obtain ⟨name, hok⟩ := (exists_value_of_members hms _ hs).1
    cases hname.symm.trans hok
  | @entry entries key s e hs _ ih =>
    intro hv
    rw [value] at hv
    obtain ⟨ms, hms, -⟩ := Json.exists_of_bind_eq_ok hv
    obtain ⟨w, hw⟩ := (exists_value_of_members hms _ hs).2
    exact ih w hw

/-- A setting has no value exactly if some part of it is at fault. -/
theorem exists_error_iff {s : Setting} :
    (∃ e, s.value = .error e) ↔ ∃ e, s.Complains e := by
  constructor
  · rintro ⟨e, he⟩
    exact ⟨e, complains_of_value s he⟩
  · rintro ⟨e, he⟩
    cases hvalue : s.value with
    | error e' => exact ⟨e', rfl⟩
    | ok v => exact absurd hvalue (he.value_ne_ok v)

end Setting

/-! ## Calls -/

/-- What a key manager makes known when its record is asked for. -/
structure Call where
  record : Option KeyManagerRecord
  /-- The questions that the resolver is asked, by how many have been asked before them. -/
  questions : List Nat
  notices : List Notice
  deriving DecidableEq, Repr

namespace KeyManager

/-- Whether the settings can be encoded. -/
def encodable (k : KeyManager Setting) : Bool := k.configuration.value.isOk

theorem encodable_of_ok {k : KeyManager Setting} {v : Json.Value}
    (h : k.configuration.value = .ok v) : k.encodable = true := by
  rw [encodable, h]
  rfl

theorem encodable_of_error {k : KeyManager Setting} {e : Setting.Error}
    (h : k.configuration.value = .error e) : k.encodable = false := by
  rw [encodable, h]
  rfl

/-- What a key manager makes known after the resolver has been asked so often. -/
def call (resolver : Resolver) (k : KeyManager Setting) (asked : Nat) : Call :=
  let result := k.record resolver { Backfill.start with asked }
  ⟨result.1, List.range' asked (result.2.asked - asked), result.2.notices⟩

variable (resolver : Resolver) {k : KeyManager Setting}

theorem call_of_error {e : Setting.Error} (h : k.configuration.value = .error e) (asked : Nat) :
    k.call resolver asked = ⟨none, [], [.configurationUnencoded k.name e.message]⟩ := by
  rw [call, record_of_error resolver h]
  show Call.mk none (List.range' asked (asked - asked)) _ = _
  rw [Nat.sub_self]
  rfl

theorem call_of_ok {v : Json.Value} (h : k.configuration.value = .ok v) (asked : Nat) :
    k.call resolver asked =
      if k.tenantDomain = "" then
        ⟨some (k.recordIn v.toText (resolver.connected asked)), [asked], resolver.notices asked⟩
      else ⟨some (k.recordIn v.toText k.tenantDomain), [], []⟩ := by
  rw [call, record_of_ok resolver h, Resolver.domainFor]
  by_cases hdomain : k.tenantDomain = ""
  · have hmem : "" ∈ [k.tenantDomain] := List.mem_singleton.mpr hdomain.symm
    rw [if_pos hdomain, Backfill.after_of_mem hmem, Backfill.settle_of_none rfl, hdomain]
    show Call.mk _ (List.range' asked (asked + 1 - asked)) _ = _
    rw [Nat.add_sub_cancel_left]
    rfl
  · have hmem : "" ∉ [k.tenantDomain] := fun h => hdomain (List.mem_singleton.mp h).symm
    rw [if_neg hdomain, Backfill.after_of_notMem hmem, if_pos hdomain]
    show Call.mk _ (List.range' asked (asked - asked)) _ = _
    rw [Nat.sub_self]
    rfl

theorem call_questions (k : KeyManager Setting) (asked : Nat) :
    (k.call resolver asked).questions =
      List.range' asked (k.call resolver asked).questions.length := by
  simp only [call, List.length_range']

/-- All that a record does is what its call makes known. -/
theorem record_eq_call (k : KeyManager Setting) (b : Backfill) :
    ∃ settled, k.record resolver b =
      ((k.call resolver b.asked).record,
        { asked := b.asked + (k.call resolver b.asked).questions.length
          settled
          notices := b.notices ++ (k.call resolver b.asked).notices }) := by
  cases hvalue : k.configuration.value with
  | error e =>
    refine ⟨b.settled, ?_⟩
    rw [record_of_error resolver hvalue, call_of_error resolver hvalue]
    rfl
  | ok v =>
    rw [record_of_ok resolver hvalue, call_of_ok resolver hvalue]
    by_cases hdomain : k.tenantDomain = ""
    · refine ⟨some (resolver.connected b.asked), ?_⟩
      have hmem : "" ∈ [k.tenantDomain] := List.mem_singleton.mpr hdomain.symm
      rw [if_pos hdomain, Backfill.after_of_mem hmem, Backfill.settle_of_none rfl,
        Resolver.domainFor, hdomain]
      rfl
    · refine ⟨none, ?_⟩
      have hmem : "" ∉ [k.tenantDomain] := fun h => hdomain (List.mem_singleton.mp h).symm
      have hquiet : b.notices ++ [] = b.notices := List.append_nil b.notices
      rw [if_neg hdomain, Backfill.after_of_notMem hmem, Resolver.domainFor, if_pos hdomain, hquiet]
      rfl

end KeyManager

/-! ## Batches -/

/-- The calls of a batch after the resolver has been asked so often. -/
def calls (resolver : Resolver) : List (KeyManager Setting) → (asked : Nat) → List Call
  | [], _ => []
  | k :: ks, asked =>
    k.call resolver asked ::
      calls resolver ks (asked + (k.call resolver asked).questions.length)

/-- The calls of those key managers of a batch that can be encoded, with whose they are. -/
def encodedCalls (resolver : Resolver) (ks : List (KeyManager Setting)) (asked : Nat) :
    List (KeyManager Setting × Call) :=
  (ks.zip (calls resolver ks asked)).filter fun entry => entry.1.encodable

section

variable (resolver : Resolver)

theorem length_calls (ks : List (KeyManager Setting)) (asked : Nat) :
    (calls resolver ks asked).length = ks.length := by
  induction ks generalizing asked with
  | nil => rfl
  | cons k ks ih => rw [calls, List.length_cons, List.length_cons, ih]

theorem exists_call_of_mem_zip {ks : List (KeyManager Setting)} {asked : Nat}
    {k : KeyManager Setting} {call : Call} (h : (k, call) ∈ ks.zip (calls resolver ks asked)) :
    ∃ before, call = k.call resolver before := by
  induction ks generalizing asked with
  | nil => cases h
  | cons k' ks ih =>
    rw [calls, List.zip_cons_cons] at h
    rcases List.mem_cons.mp h with heq | h
    · obtain ⟨rfl, rfl⟩ := Prod.mk.inj heq
      exact ⟨asked, rfl⟩
    · exact ih h

/-- The questions of a batch are asked one after the other. -/
theorem questions_calls (ks : List (KeyManager Setting)) (asked : Nat) :
    (calls resolver ks asked).flatMap Call.questions =
      List.range' asked ((calls resolver ks asked).flatMap Call.questions).length := by
  induction ks generalizing asked with
  | nil => rfl
  | cons k ks ih =>
    have hfirst := k.call_questions resolver asked
    have hrest := ih (asked + (k.call resolver asked).questions.length)
    rw [calls, List.flatMap_cons, List.length_append, ← List.range'_append_1, ← hrest, ← hfirst]

/-- A batch comes to its calls. -/
theorem mapM_record (ks : List (KeyManager Setting)) (b : Backfill) :
    ∃ settled, ks.mapM (m := StateM Backfill) (KeyManager.record resolver) b =
      ((calls resolver ks b.asked).map Call.record,
        { asked := b.asked + ((calls resolver ks b.asked).flatMap Call.questions).length
          settled
          notices := b.notices ++ (calls resolver ks b.asked).flatMap Call.notices }) := by
  induction ks generalizing b with
  | nil =>
    refine ⟨b.settled, ?_⟩
    simp only [calls, List.flatMap_nil, List.length_nil, Nat.add_zero, List.append_nil]
    rfl
  | cons k ks ih =>
    obtain ⟨between, hfirst⟩ := k.record_eq_call resolver b
    obtain ⟨settled, hrest⟩ := ih
      { asked := b.asked + (k.call resolver b.asked).questions.length
        settled := between
        notices := b.notices ++ (k.call resolver b.asked).notices }
    refine ⟨settled, ?_⟩
    rw [List.mapM_cons, Backfill.bind_eq, hfirst, Backfill.bind_eq, hrest]
    simp only [calls, List.map_cons, List.flatMap_cons, List.length_append, Nat.add_assoc,
      List.append_assoc]
    rfl

/-- Key managers that cannot be encoded can be taken out of a batch. -/
theorem encodedCalls_eq (ks : List (KeyManager Setting)) (asked : Nat) :
    encodedCalls resolver ks asked =
      (ks.filter KeyManager.encodable).zip
        (calls resolver (ks.filter KeyManager.encodable) asked) := by
  induction ks generalizing asked with
  | nil => rfl
  | cons k ks ih =>
    rw [encodedCalls, calls, List.zip_cons_cons, List.filter_cons, List.filter_cons]
    cases hvalue : k.configuration.value with
    | error e =>
      -- nothing has been asked, so the rest of the batch begins where this one has begun
      have hasked : asked + (k.call resolver asked).questions.length = asked := by
        rw [KeyManager.call_of_error resolver hvalue]
        rfl
      have hencodable := KeyManager.encodable_of_error hvalue
      simp only [hencodable, Bool.false_eq_true, if_false, hasked]
      exact ih asked
    | ok v =>
      have hencodable := KeyManager.encodable_of_ok hvalue
      simp only [hencodable, if_true]
      rw [calls, List.zip_cons_cons, ← ih]
      rfl

/-- A batch of key managers comes to one call for each, with all questions and notices in the order
of the batch.  The call of one whose settings cannot be encoded has no record, asks nothing and
tells of just that; these are the ones that have a part at fault, at whatever depth.  All other
calls stay the same, questions included, when such key managers are taken out or put in. -/
theorem batch_isolated (ks : List (KeyManager Setting)) (b : Backfill) :
    ((calls resolver ks b.asked).length = ks.length ∧
      (∃ settled, ks.mapM (m := StateM Backfill) (KeyManager.record resolver) b =
        ((calls resolver ks b.asked).map Call.record,
          { asked := b.asked + ((calls resolver ks b.asked).flatMap Call.questions).length
            settled
            notices := b.notices ++ (calls resolver ks b.asked).flatMap Call.notices })) ∧
      (calls resolver ks b.asked).flatMap Call.questions =
        List.range' b.asked ((calls resolver ks b.asked).flatMap Call.questions).length) ∧
    (∀ k call, (k, call) ∈ ks.zip (calls resolver ks b.asked) →
      (k.encodable = false ↔ ∃ e, k.configuration.Complains e) ∧
      (∀ e, k.configuration.value = .error e → ∃ notice, call = ⟨none, [], [notice]⟩ ∧
        notice.line =
          "WARN " ++ ("Failed to encode configuration of key manager " ++ k.name ++ ": " ++
            e.message)) ∧
      (k.encodable = true → call.record ≠ none)) ∧
    encodedCalls resolver ks b.asked =
      (ks.filter KeyManager.encodable).zip
        (calls resolver (ks.filter KeyManager.encodable) b.asked) ∧
    ∀ others : List (KeyManager Setting),
      others.filter KeyManager.encodable = ks.filter KeyManager.encodable →
        encodedCalls resolver others b.asked = encodedCalls resolver ks b.asked := by
  refine ⟨⟨length_calls resolver ks _, mapM_record resolver ks b, questions_calls resolver ks _⟩,
    fun k call h => ⟨?faulty, ?reported, ?recorded⟩, encodedCalls_eq resolver ks _, ?others⟩
  case faulty =>
    rw [← Setting.exists_error_iff]
    cases hvalue : k.configuration.value with
    | error e => exact ⟨fun _ => ⟨e, rfl⟩, fun _ => KeyManager.encodable_of_error hvalue⟩
    | ok v =>
      have hencodable := KeyManager.encodable_of_ok hvalue
      exact ⟨fun h => absurd (hencodable.symm.trans h) (by decide), fun ⟨_, h⟩ => nomatch h⟩
  case reported =>
    intro e hvalue
    obtain ⟨before, rfl⟩ := exists_call_of_mem_zip resolver h
    refine ⟨.configurationUnencoded k.name e.message,
      KeyManager.call_of_error resolver hvalue before, ?_⟩
    have hwarn : ("WARN" : String) ++ " " = "WARN " := by decide +kernel
    rw [Notice.line, ← hwarn]
    rfl
  case recorded =>
    intro hencodable
    obtain ⟨before, rfl⟩ := exists_call_of_mem_zip resolver h
    cases hvalue : k.configuration.value with
    | error e =>
      exact absurd (hencodable.symm.trans (KeyManager.encodable_of_error hvalue)) (by decide)
    | ok v =>
      rw [KeyManager.call_of_ok resolver hvalue]
      split <;> exact Option.some_ne_none _
  case others =>
    intro others hothers
    rw [encodedCalls_eq, encodedCalls_eq, hothers]

end

/-- A list in which a map has a pair for a key. -/
def pairKeyed : KeyManager Setting :=
  ⟨"broken", "custom", true, "", .list [.nested (.keyed [(.composite, .null)])]⟩

/-- A key manager without a domain. -/
def unscoped : KeyManager Setting := ⟨"k", "", false, "", .keyed [(.integer (-1), .bool true)]⟩

/-- The resolver is asked for the two that can be encoded, and its first answer goes to the first of
them although another one comes before it. -/
theorem batch_isolated_pairKeyed :
    let resolver : Resolver := fun asked => if asked = 0 then "first" else ""
    encodedCalls resolver [pairKeyed, unscoped, pairKeyed, unscoped] 0 =
      encodedCalls resolver [unscoped, unscoped] 0 ∧
    (encodedCalls resolver [unscoped, unscoped] 0).map Prod.snd =
      [⟨some ⟨"k", "", false, "first", "\x7b\"-1\":true\x7d"⟩, [0], []⟩,
        ⟨some ⟨"k", "", false, "carbon.super", "\x7b\"-1\":true\x7d"⟩, [1],
          [.domainFellBack "carbon.super"]⟩] ∧
    pairKeyed.configuration.Complains .keyNotText := by
  intro resolver
  obtain ⟨-, -, -, hothers⟩ := batch_isolated resolver [unscoped, unscoped] .start
  refine ⟨hothers [pairKeyed, unscoped, pairKeyed, unscoped] rfl, by decide +kernel, ?_⟩
  exact .item List.mem_cons_self (.entry List.mem_cons_self (.key List.mem_cons_self rfl))

end PlaneBridge.Catalog
