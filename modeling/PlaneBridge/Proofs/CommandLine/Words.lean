import Mathlib.Data.List.Basic
import PlaneBridge.CommandLine.Command

/-!
# Words that are understood

A command can be told with all values behind equals signs, whatever they are: `ofWords?_spell`.  So
every path of a configuration and every path of a snapshot can be asked for.
-/

namespace PlaneBridge.CommandLine

open Catalog.Snapshot (Kind)

/-- Options in words, each with its value behind an equals sign. -/
def spell (options : Options) : List String :=
  options.map fun (name, value) => "--" ++ name ++ "=" ++ value

/-- Names that options can have. -/
def IsName (name : String) : Prop := name ≠ "" ∧ '=' ∉ name.toList

theorem splitOption_assignment {name : String} (h : '=' ∉ name.toList) (value : String) :
    splitOption (name.toList ++ '=' :: value.toList) = (name, some value) := by
  have hname : ∀ c ∈ name.toList, decide (c ≠ '=') = true := by
    intro c hc
    exact decide_eq_true fun heq => h (heq ▸ hc)
  have htake : (name.toList ++ '=' :: value.toList).takeWhile (fun c => c ≠ '=') =
      name.toList := by
    rw [List.takeWhile_append_of_pos hname]
    simp
  simp only [splitOption, htake]
  simp

theorem readOptions_assignment {names : List String} {name : String} (hmem : name ∈ names)
    (hname : IsName name) (value : String) (rest : List String) :
    readOptions names (("--" ++ name ++ "=" ++ value) :: rest) =
      (readOptions names rest).map fun (options, rest) => ((name, value) :: options, rest) := by
  have hword : ("--" ++ name ++ "=" ++ value).toList =
      '-' :: '-' :: (name.toList ++ '=' :: value.toList) := by
    simp [String.toList_append]
  have hsplit := splitOption_assignment hname.2 value
  cases hfirst : name.toList with
  | nil => exact absurd (String.toList_eq_nil_iff.mp hfirst) hname.1
  | cons c cs =>
    -- an option has to be told from two dashes alone
    rw [hfirst, List.cons_append] at hword hsplit
    simp only [readOptions, hword, hsplit]
    rw [if_pos (List.contains_iff_mem.mpr hmem)]
    cases readOptions names rest <;> rfl

theorem readOptions_spell {names : List String} {options : Options}
    (h : ∀ o ∈ options, o.1 ∈ names ∧ IsName o.1) (rest : List String) :
    readOptions names (spell options ++ rest) =
      (readOptions names rest).map fun (more, rest) => (options ++ more, rest) := by
  induction options with
  | nil =>
    show readOptions names rest = _
    cases readOptions names rest <;> rfl
  | cons o options ih =>
    obtain ⟨⟨hmem, hname⟩, hoptions⟩ := List.forall_mem_cons.mp h
    show readOptions names (("--" ++ o.1 ++ "=" ++ o.2) :: (spell options ++ rest)) = _
    rw [readOptions_assignment hmem hname, ih hoptions]
    cases readOptions names rest <;> rfl

theorem values_eq_nil {options : Options} {name : String} (h : ∀ o ∈ options, o.1 ≠ name) :
    options.values name = [] := by
  simpa [Options.values] using fun name' value ho => h (name', value) ho

/-- A word without a dash in front is left where it stands. -/
theorem readOptions_word {names : List String} {word : String} (h : word.toList.head? ≠ some '-')
    (rest : List String) : readOptions names (word :: rest) = some ([], word :: rest) := by
  cases hword : word.toList with
  | nil => simp only [readOptions, hword]
  | cons c cs =>
    rw [hword] at h
    have hc : c ≠ '-' := fun heq => h (congrArg some heq)
    simp only [readOptions, hword]
    split <;> simp_all

/-- A command spelled with its options is understood, with any configuration in front of it. -/
theorem ofWords?_spell {name config : String} {names : List String} {options : Options}
    {command : Command} (hconfig : config ≠ "") (hdash : name.toList.head? ≠ some '-')
    (hnames : optionNames? name = some names) (hoptions : ∀ o ∈ options, o.1 ∈ names ∧ IsName o.1)
    (hplain : ∀ o ∈ options, o.1 ≠ "config") (hcommand : command? name options = some command) :
    Invocation.ofWords? (spell [("config", config)] ++ name :: spell options) =
      some ⟨config, command⟩ := by
  have hbefore : readOptions ["config"] (spell [("config", config)] ++ name :: spell options) =
      some ([("config", config)], name :: spell options) := by
    have hknown : ∀ o ∈ [("config", config)], o.1 ∈ ["config"] ∧ IsName o.1 := by
      intro o ho
      rw [List.mem_singleton.mp ho]
      exact ⟨List.mem_cons_self, by simp, by simp⟩
    rw [readOptions_spell hknown, readOptions_word hdash]
    rfl
  have hbehind : readOptions ("config" :: names) (spell options) = some (options, []) := by
    have h := @readOptions_spell ("config" :: names) options
      (fun o ho => ⟨List.mem_cons_of_mem _ (hoptions o ho).1, (hoptions o ho).2⟩) []
    rw [List.append_nil] at h
    rw [h]
    show some (options ++ [], []) = _
    rw [List.append_nil]
  have houter : configOf? [("config", config)] = some (some config) := by
    show (some config).mapM path? = _
    rw [Option.mapM_some, path?, if_neg hconfig]
    rfl
  have hinner : configOf? options = some none := by
    rw [configOf?, Options.atMostOne, values_eq_nil hplain]
    rfl
  simp only [Invocation.ofWords?, hbefore, hnames, hbehind, houter, hinner, hcommand, bind,
    Option.bind]
  rfl

theorem ofWords?_renderConfig {config : String} (hconfig : config ≠ "") :
    Invocation.ofWords? ["--config=" ++ config, "render-config"] =
      some ⟨config, .renderConfig⟩ :=
  @ofWords?_spell "render-config" config [] [] .renderConfig hconfig (by simp) rfl
    (fun _ ho => absurd ho List.not_mem_nil) (fun _ ho => absurd ho List.not_mem_nil) rfl

theorem Kind.ofName?_name (kind : Kind) : Kind.ofName? kind.name = some kind := by
  cases kind <;> decide

theorem ofWords?_translate {config input : String} (hconfig : config ≠ "") (hinput : input ≠ "")
    (kind : Kind) :
    Invocation.ofWords? ["--config=" ++ config, "translate", "--kind=" ++ kind.name,
      "--input=" ++ input] = some ⟨config, .translate kind input⟩ := by
  refine @ofWords?_spell "translate" config ["kind", "input"] [("kind", kind.name), ("input", input)]
    (.translate kind input) hconfig (by simp) rfl ?_ ?_ ?_
  · simp [IsName]
  · simp
  · show (do
      let kind ← Kind.ofName? kind.name
      let input ← path? input
      pure (Command.translate kind input)) = _
    rw [Kind.ofName?_name, path?, if_neg hinput]
    rfl

end PlaneBridge.CommandLine
