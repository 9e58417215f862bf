import FeedClient.Proofs.Configuration
import FeedClient.Proofs.Program.Command

/-!
# How the program ends

The exit of a command is settled before anything is sent. It fails when the configuration cannot be
put together, and then nothing is sent or printed at all; otherwise it succeeds, and no server can
change that.
-/

namespace FeedClient

open Program (Event World Stage Exit)

/-- The arguments can be read, and name a command. -/
def Invocation.Selects (args : List String) (command : Command) : Prop :=
  ∃ i, Invocation.read args = .ok i ∧ i.command = some command

namespace Configuration

/-- The configuration cannot be put together: the file cannot be read, or no view is given and the
one that the file names does not exist. -/
inductive Unusable (given : Option View) (file : Option String) : Prop
  | unread {fault : Preferences.Fault} (h : Preferences.load file = .error fault)
  | unknownView {preferences : Preferences} (h : Preferences.load file = .ok preferences)
      (hgiven : given = none) {label : String} (hpreferred : preferences.view = some label)
      (hlabel : View.ofLabel? label = none)

/-- With preferences that can be read, the configuration depends on the view alone. -/
theorem unusable_iff {given : Option View} {file : Option String} {preferences : Preferences}
    (h : Preferences.load file = .ok preferences) :
  Unusable given file ↔ ∃ e, chooseView given preferences.view = .error e
  := by
  rw [exists_chooseView_eq_error_iff]
  constructor
  · intro hunusable
    cases hunusable with
    | unread hfault =>
        rw [h] at hfault
        cases hfault
    | unknownView hload hgiven hpreferred hlabel =>
        rw [h] at hload
        cases hload
        exact ⟨hgiven, _, hpreferred, hlabel⟩
  · rintro ⟨hgiven, label, hpreferred, hlabel⟩
    apply Unusable.unknownView h hgiven hpreferred hlabel

end Configuration

namespace Program

open FeedClient.Configuration (Unusable)

variable {i : Invocation} {command : Command}

/-- A command is carried out if the configuration can be put together, and fails otherwise. -/
theorem start_cases (hcommand : i.command = some command) (file : Option String) :
  (Unusable i.view file
      ∧ ∃ message, ∀ zone, start i file zone = pure (.ended (.failure message)))
    ∨ (¬ Unusable i.view file
      ∧ ∃ config, ∀ zone, start i file zone = ofCommand config command zone)
  := by
  cases hload : Preferences.load file with
  | error fault =>
      left
      refine ⟨Unusable.unread hload, "Failed to load settings", ?_⟩
      intro zone
      rw [start, hload]
  | ok preferences =>
      rw [Configuration.unusable_iff hload]
      cases hview : Configuration.chooseView i.view preferences.view with
      | error e =>
          left
          refine ⟨⟨e, rfl⟩, Configuration.invalidView e, ?_⟩
          intro zone
          simp only [start, hload, Configuration.choose, hview]
          rfl
      | ok view =>
          right
          obtain ⟨config, hconfig⟩ : ∃ config, Configuration.choose i preferences = .ok config := by
            rw [Configuration.choose, hview]
            exact ⟨_, rfl⟩
          refine ⟨by simp, config, ?_⟩
          intro zone
          simp only [start, hload, hconfig, hcommand, Option.getD_some]

/-- How a command ends is settled by the invocation and the configuration file, and so is that
nothing is sent or printed when it fails. -/
theorem exists_exit (hcommand : i.command = some command) (hshell : command ≠ .shell)
    (file : Option String) :
  ∃ exit : Exit, (exit.code = 1 ↔ Unusable i.view file) ∧ (exit.code = 0 ↔ ¬ Unusable i.view file)
    ∧ ∀ {zone events stage}, (start i file zone).Runs events stage →
      stage = .ended exit ∧ (Unusable i.view file → events = [])
  := by
  obtain ⟨hunusable, message, hstart⟩ | ⟨husable, config, hstart⟩ := start_cases hcommand file
  · refine ⟨.failure message, ?_, ?_, ?_⟩
    · simp [Exit.code, hunusable]
    · simp [Exit.code, hunusable]
    · intro zone events stage hruns
      rw [hstart] at hruns
      obtain ⟨rfl, rfl⟩ := Dialogue.runs_pure.mp hruns
      exact ⟨rfl, fun _ => rfl⟩
  · refine ⟨.success, ?_, ?_, ?_⟩
    · simp [Exit.code, husable]
    · simp [Exit.code, husable]
    · intro zone events stage hruns
      rw [hstart] at hruns
      obtain ⟨rfl, -⟩ := course_of_runs config zone hshell hruns
      exact ⟨rfl, fun h => absurd h husable⟩

/-- The exit of a command, which has its code and its error line, does not depend on the server.
The code is 1 if the configuration cannot be put together, and then nothing has been sent or printed,
and 0 otherwise. -/
theorem command_exit {args : List String} (hselects : Invocation.Selects args command)
    (hshell : command ≠ .shell) (env : Environment) (file : Option String) :
  ∃ i exit, Invocation.read args = .ok i
    ∧ (exit.code = 1 ↔ Unusable i.view file) ∧ (exit.code = 0 ↔ ¬ Unusable i.view file)
    ∧ ∀ {σ : Type} (world : World σ) (s : σ) (zone : Zone),
      let ran := (start (i.within env) file zone).record world s
      ran.2 = .ended exit ∧ (Unusable i.view file → ran.1 = [])
  := by
  obtain ⟨i, hread, hcommand⟩ := hselects
  have hwithin : (i.within env).command = some command := hcommand
  obtain ⟨exit, hone, hzero, hruns⟩ := exists_exit hwithin hshell file
  refine ⟨i, exit, hread, hone, hzero, ?_⟩
  intro σ world s zone
  apply hruns (Dialogue.runs_record world _ s)

/-- The preferred view does not exist, and no other is given. -/
theorem command_exit_unknownView :
  let args := ["-u", "ann", "subscribe", "bob"]
  let file := some "view = \"Nowhere\""
  Invocation.Selects args (.subscribe "bob") ∧ ∃ i exit, Invocation.read args = .ok i
    ∧ exit.code = 1 ∧ ∀ {σ : Type} (world : World σ) (s : σ) (zone : Zone),
      (start (i.within {}) file zone).record world s = ([], .ended exit)
  := by
  have hread : Invocation.read ["-u", "ann", "subscribe", "bob"]
      = .ok { user := some "ann", command := some (.subscribe "bob") } := by
    decide +kernel
  have hload : Preferences.load (some "view = \"Nowhere\"")
      = .ok { view := some "Nowhere" } := by
    decide +kernel
  have hunusable : Unusable none (some "view = \"Nowhere\"") :=
    Unusable.unknownView hload rfl rfl (by decide)
  have hselects : Invocation.Selects ["-u", "ann", "subscribe", "bob"] (.subscribe "bob") :=
    ⟨_, hread, rfl⟩
  obtain ⟨i, exit, hi, hone, -, hrecord⟩ :=
    command_exit hselects (by decide) {} (some "view = \"Nowhere\"")
  obtain rfl := Except.ok.inj (hread.symm.trans hi)
  refine ⟨hselects, _, exit, hread, hone.mpr hunusable, ?_⟩
  intro σ world s zone
  obtain ⟨hstage, hevents⟩ := hrecord world s zone
  apply Prod.ext (hevents hunusable) hstage

end Program

end FeedClient
