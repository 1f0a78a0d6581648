import PlaneBridge.CommandLine.Run

/-!
# Runs

A run is loading the configuration and then, if that has not failed, the command: `runIn_of_error`
and `output_of_load`.  So a text is written just if there is a configuration under which the command
writes it, `output_eq_ok_iff`, and a run that fails writes nothing.
-/

namespace PlaneBridge.CommandLine

open Config
open Catalog (Arrangement)

/-! ## Results -/

theorem exitCode_eq_zero_iff (r : Result) : r.exitCode = 0 ↔ ∃ text, r.output = .ok text := by
  cases houtput : r.output with
  | ok text => simp [Result.exitCode, houtput]
  | error failure => cases failure <;> simp [Result.exitCode, houtput, Failure.exitCode]

theorem Result.standardOutput_of_ok {r : Result} {text : String} (h : r.output = .ok text) :
    r.standardOutput = text := by
  rw [standardOutput, h]

theorem Result.standardOutput_of_failure {r : Result} (h : r.exitCode ≠ 0) :
    r.standardOutput = "" := by
  cases houtput : r.output with
  | ok text => exact absurd ((exitCode_eq_zero_iff r).mpr ⟨text, houtput⟩) h
  | error failure => rw [standardOutput, houtput]

/-! ## Runs -/

/-- Loading a configuration looks at its own path alone. -/
theorem loadOrDefault_congr {disk disk' : Disk} {path : String} (h : disk' path = disk path)
    (e : Environment) :
    AdapterConfig.loadOrDefault disk' path e = AdapterConfig.loadOrDefault disk path e := by
  have htext : disk'.readText path = disk.readText path := by
    rw [Disk.readText, Disk.readText, Disk.read, Disk.read, h]
  rw [AdapterConfig.loadOrDefault, AdapterConfig.loadOrDefault, AdapterConfig.load,
    AdapterConfig.load, Disk.exists?, Disk.exists?, htext, h]

section

variable {σ : Type} (arrangement : Arrangement) (write : EnforcerConfig → Json.Value)
  (next : Delivery.Source σ) (s : σ) {disk : Disk} {e : Environment} {words : List String}
  {config : String} {command : Command}

theorem runIn_of_error (hwords : Invocation.ofWords? words = some ⟨config, command⟩)
    {error : Config.Error}
    (hload : (AdapterConfig.loadOrDefault disk config e).1 = .error error) :
    runIn arrangement write disk e next s words =
      ⟨.error (.config error), (AdapterConfig.loadOrDefault disk config e).2⟩ := by
  cases hboth : AdapterConfig.loadOrDefault disk config e with
  | mk loaded notices =>
    rw [hboth] at hload
    cases hload
    simp only [runIn, hwords, hboth]

theorem output_of_load (hwords : Invocation.ofWords? words = some ⟨config, command⟩)
    {c : AdapterConfig} (hload : (AdapterConfig.loadOrDefault disk config e).1 = .ok c) :
    (runIn arrangement write disk e next s words).output =
      (command.runIn arrangement write disk next s c).output := by
  cases hboth : AdapterConfig.loadOrDefault disk config e with
  | mk loaded notices =>
    rw [hboth] at hload
    cases hload
    simp only [runIn, hwords, hboth]

/-- There is an output only if there is a configuration, and then it is the command's. -/
theorem output_eq_ok_iff (hwords : Invocation.ofWords? words = some ⟨config, command⟩)
    {text : String} :
    (runIn arrangement write disk e next s words).output = .ok text ↔
      ∃ c, (AdapterConfig.loadOrDefault disk config e).1 = .ok c ∧
        (command.runIn arrangement write disk next s c).output = .ok text := by
  cases hload : (AdapterConfig.loadOrDefault disk config e).1 with
  | error error =>
    rw [runIn_of_error arrangement write next s hwords hload]
    simp
  | ok c =>
    rw [output_of_load arrangement write next s hwords hload]
    simp

end
end PlaneBridge.CommandLine
