import PlaneBridge.Proofs.Config.Load
import PlaneBridge.Proofs.Text.LowerCase

/-!
# Configurations under an environment

The environment may replace four settings of the control plane, and the check comes after that.  So
an environment can rescue a configuration that would be refused, and can spoil one that would not.
`overridden_checked` says which configurations are accepted under an environment, with which fault
the others are refused, what of a configuration no environment touches, and that two environments
in a row are one.

Whether the control plane is enabled is asked of the environment in lower case.  The three texts
that enable it are plain words, so it does not matter how lower-casing treats characters beyond
ASCII.
-/

namespace PlaneBridge.Config

/-! ## What the environment says -/

theorem Environment.switchesOn_iff (lowering : Text.LowerCasing) (text : String) :
    Environment.switchesOn text = true ↔ lowering.lower text ∈ ["true", "1", "yes"] := by
  have htrue : Text.IsPlainWord "true".toList := by decide
  have hone : Text.IsPlainWord "1".toList := by decide
  have hyes : Text.IsPlainWord "yes".toList := by decide
  simp only [switchesOn, List.contains_eq_mem, decide_eq_true_eq, List.mem_cons, List.not_mem_nil,
    or_false, lowering.lower_eq_iff htrue, lowering.lower_eq_iff hone, lowering.lower_eq_iff hyes]

namespace AdapterConfig

section

variable (lowering : Text.LowerCasing) (c : AdapterConfig) (e : Environment)

/-- Whether the control plane is enabled under an environment. -/
def EnabledUnder : Prop :=
  match e "ADAPTER_CP_ENABLED" with
  | some text => lowering.lower text ∈ ["true", "1", "yes"]
  | none => c.controlPlane.enabled = true

/-- The address of the control plane under an environment. -/
def addressUnder : String :=
  match e "ADAPTER_CP_SERVICE_URL" with
  | some url => url
  | none => c.controlPlane.serviceUrl

/-- The control plane is enabled under the environment and has no address. -/
def LacksAddress : Prop :=
  c.EnabledUnder lowering e ∧ Text.isBlank (c.addressUnder e) = true

theorem enabled_override : (c.override e).controlPlane.enabled = true ↔
    c.EnabledUnder lowering e := by
  have hname : Environment.enabled = "ADAPTER_CP_ENABLED" := rfl
  simp only [override, ControlPlane.override, EnabledUnder, hname]
  cases e "ADAPTER_CP_ENABLED" with
  | none => exact Iff.rfl
  | some text => exact Environment.switchesOn_iff lowering text

theorem serviceUrl_override : (c.override e).controlPlane.serviceUrl = c.addressUnder e := by
  have hname : Environment.serviceUrl = "ADAPTER_CP_SERVICE_URL" := rfl
  simp only [override, ControlPlane.override, addressUnder, hname]
  cases e "ADAPTER_CP_SERVICE_URL" <;> rfl

end

/-- Overriding from one environment and then from another is overriding from both at once, the later
one first. -/
theorem override_override (c : AdapterConfig) (e f : Environment) :
    (c.override e).override f = c.override (f.orElse e) := by
  have hcontrolPlane : (c.controlPlane.override e).override f =
      c.controlPlane.override (f.orElse e) := by
    simp only [ControlPlane.override, Environment.orElse, ControlPlane.mk.injEq, and_true]
    refine ⟨?_, ?_, ?_, ?_⟩
    · cases f Environment.enabled <;> rfl
    · cases f Environment.serviceUrl <;> rfl
    · cases f Environment.username <;> rfl
    · cases f Environment.password <;> rfl
  simp only [override, hcontrolPlane]

/-! ## Faults -/

/-- The filter is the first that has no class. -/
def FirstNameless (filters : List Filter) (f : Filter) : Prop :=
  ∃ before after, filters = before ++ f :: after ∧ f.className = "" ∧
    ∀ g ∈ before, g.className ≠ ""

theorem find?_nameless {filters : List Filter} {f : Filter} :
    filters.find? (·.className = "") = some f ↔ FirstNameless filters f := by
  rw [List.find?_eq_some_iff_append, FirstNameless]
  constructor
  · rintro ⟨hf, before, after, hfilters, hbefore⟩
    refine ⟨before, after, hfilters, by simpa using hf, fun g hg => ?_⟩
    simpa using hbefore g hg
  · rintro ⟨before, after, hfilters, hf, hbefore⟩
    refine ⟨by simpa using hf, before, after, hfilters, fun g hg => ?_⟩
    simpa using hbefore g hg

variable {lowering : Text.LowerCasing} {c : AdapterConfig} {e : Environment}

theorem fault?_of_lacksAddress (h : c.LacksAddress lowering e) :
    (c.override e).fault? = some .noServiceUrl := by
  obtain ⟨henabled, hblank⟩ := h
  rw [← enabled_override] at henabled
  rw [← serviceUrl_override] at hblank
  simp only [fault?, henabled, hblank, Bool.and_self, if_true]

theorem fault?_of_hasAddress (h : ¬ c.LacksAddress lowering e) : (c.override e).fault? =
    (c.enforcer.filters.find? (·.className = "")).map (.noClassName ·.position) := by
  have hcheck : ((c.override e).controlPlane.enabled &&
      Text.isBlank (c.override e).controlPlane.serviceUrl) = false := by
    rw [Bool.and_eq_false_iff]
    by_cases henabled : (c.override e).controlPlane.enabled = true
    · right
      have hblank : ¬ Text.isBlank (c.addressUnder e) = true := fun hblank =>
        h ⟨(c.enabled_override lowering e).mp henabled, hblank⟩
      rw [serviceUrl_override]
      exact Bool.eq_false_iff.mpr hblank
    · exact .inl (Bool.eq_false_iff.mpr henabled)
  rw [fault?, hcheck]
  rfl

theorem fault?_eq_noClassName (h : ¬ c.LacksAddress lowering e) {fault : Fault} :
    (c.override e).fault? = some fault ↔
      ∃ f, FirstNameless c.enforcer.filters f ∧ fault = .noClassName f.position := by
  rw [fault?_of_hasAddress h, Option.map_eq_some_iff]
  constructor
  · rintro ⟨f, hf, rfl⟩
    exact ⟨f, find?_nameless.mp hf, rfl⟩
  · rintro ⟨f, hf, rfl⟩
    exact ⟨f, find?_nameless.mpr hf, rfl⟩

theorem fault?_eq_none_iff : (c.override e).fault? = none ↔
    ¬ c.LacksAddress lowering e ∧ ∀ f ∈ c.enforcer.filters, f.className ≠ "" := by
  by_cases h : c.LacksAddress lowering e
  · simp [fault?_of_lacksAddress h, h]
  · simp [fault?_of_hasAddress h, h]

theorem rejected_iff {error : Error} : (c.override e).validated = .error error ↔
    (c.LacksAddress lowering e ∧ error = .invalid .noServiceUrl) ∨
      (¬ c.LacksAddress lowering e ∧
        ∃ f, FirstNameless c.enforcer.filters f ∧ error = .invalid (.noClassName f.position)) := by
  rw [validated_eq_error]
  by_cases h : c.LacksAddress lowering e
  · simp [fault?_of_lacksAddress h, h]
  · simp only [fault?_eq_noClassName h, h, false_and, false_or, not_false_eq_true, true_and]
    constructor
    · rintro ⟨_, ⟨f, hf, rfl⟩, rfl⟩
      exact ⟨f, hf, rfl⟩
    · rintro ⟨f, hf, rfl⟩
      exact ⟨_, ⟨f, hf, rfl⟩, rfl⟩

/-- Under an environment a configuration is accepted exactly if an enabled control plane has an
address and every filter has a class.  A missing address is what it is refused for, whatever the
filters are like, and otherwise it is the first filter without a class, named by its position.
Overriding replaces four settings and nothing else, and doing so twice is doing so once. -/
theorem overridden_checked (lowering : Text.LowerCasing) (c : AdapterConfig) (e : Environment) :
    ((c.override e).validated = .ok (c.override e) ↔
      ¬ c.LacksAddress lowering e ∧ ∀ f ∈ c.enforcer.filters, f.className ≠ "") ∧
    (∀ c', (c.override e).validated = .ok c' → c' = c.override e) ∧
    (∀ error, (c.override e).validated = .error error ↔
      (c.LacksAddress lowering e ∧ error = .invalid .noServiceUrl) ∨
        (¬ c.LacksAddress lowering e ∧ ∃ f, FirstNameless c.enforcer.filters f ∧
          error = .invalid (.noClassName f.position))) ∧
    (Error.invalid .noServiceUrl).message = "Invalid configuration: " ++
      "controlPlane.serviceUrl is required when the control plane is enabled" ∧
    (∀ position, (Error.invalid (.noClassName position)).message = "Invalid configuration: " ++
      ("enforcer filter at position " ++ decimal position.toInt ++ " has no className")) ∧
    (∃ enabled, (enabled = true ↔ c.EnabledUnder lowering e) ∧
      c.override e = { c with controlPlane := { c.controlPlane with
        serviceUrl := c.addressUnder e
        username := (e "ADAPTER_CP_USERNAME").getD c.controlPlane.username
        password := (e "ADAPTER_CP_PASSWORD").getD c.controlPlane.password
        enabled } }) ∧
    ∀ f : Environment, (c.override e).override f = c.override (f.orElse e) := by
  refine ⟨?accepted, ?same, fun _ => rejected_iff, rfl, fun _ => rfl, ?replaced,
    override_override c e⟩
  case accepted =>
    rw [validated_eq_ok, ← fault?_eq_none_iff]
    exact and_iff_left rfl
  case same =>
    intro c' h
    exact (validated_eq_ok.mp h).2.symm
  case replaced =>
    refine ⟨(c.override e).controlPlane.enabled, c.enabled_override lowering e, ?_⟩
    rw [← serviceUrl_override]
    rfl

/-- An enabled control plane with an address, and a filter of which the class has been forgotten. -/
def forgotten : AdapterConfig where
  enforcer := { filters := [{ className := "a", position := 1 }, { position := -2 }, {}] }
  controlPlane := { enabled := true, serviceUrl := "u" }

/-- The environment that takes the address away. -/
def blanking : Environment := fun name => if name = Environment.serviceUrl then some " " else none

/-- The environment that disables the control plane in an unusual way. -/
def disabling : Environment := fun name => if name = Environment.enabled then some "on" else none

/-- Without its address the configuration is refused for that.  Once the control plane is disabled
as well, the class comes to light that has been forgotten first. -/
theorem overridden_checked_forgotten :
    (forgotten.override blanking).validated = .error (.invalid .noServiceUrl) ∧
    ((forgotten.override blanking).override disabling).validated =
      .error (.invalid (.noClassName (-2))) := by
  obtain ⟨-, -, hblank, -, -, -, htwice⟩ := overridden_checked .ascii forgotten blanking
  obtain ⟨-, -, hdisabled, -⟩ :=
    overridden_checked .ascii forgotten (disabling.orElse blanking)
  have hoff : ¬ forgotten.LacksAddress .ascii (disabling.orElse blanking) := by
    rintro ⟨henabled, -⟩
    have hon : Text.LowerCasing.ascii.lower "on" ∉ ["true", "1", "yes"] := by decide +kernel
    exact hon henabled
  refine ⟨(hblank _).mpr (.inl ⟨⟨rfl, by decide⟩, rfl⟩), ?_⟩
  rw [htwice]
  refine (hdisabled _).mpr (.inr ⟨hoff, { position := -2 }, ?_, rfl⟩)
  exact ⟨[{ className := "a", position := 1 }], [{}], rfl, rfl, by simp⟩

end AdapterConfig
end PlaneBridge.Config
