import FeedClient.Controller.Desk
import FeedClient.Proofs.NavBar

/-!
# What one step does

The effect of a step on a desk is one of a few: the reply is ignored, a mutation is called for, an
action ends, a refresh starts, or a fetched feed fails, is stale or is applied. `Desk.effect_step`
says that there are no others as long as the navigation bar is standard, which every step keeps it.
What holds of every run is derived from this, one case for each effect.
-/

namespace FeedClient

/-! ### How actions end -/

/-- How the refresh of an action ended, if there was one. -/
def Outcome.refresh? : Outcome → Option RefreshOutcome
  | refreshed refresh => some refresh
  | acted _ refresh => refresh

@[simp]
theorem Outcome.refresh?_acted (accepted : Bool) (refresh : Option RefreshOutcome) :
  (acted accepted refresh).refresh? = refresh
  := rfl

@[simp]
theorem Purpose.refresh?_outcome (purpose : Purpose) (refresh : RefreshOutcome) :
  (purpose.outcome refresh).refresh? = some refresh
  := by
  cases purpose <;> rfl

/-- How the refresh of an action ended, once the action is over. -/
def Progress.refreshed? : Progress → Option RefreshOutcome
  | waiting _ => none
  | done outcome => outcome.refresh?

@[simp]
theorem Progress.refreshed?_done (outcome : Outcome) :
  (done outcome).refreshed? = outcome.refresh?
  := rfl

/-- The task that an action has left waiting. -/
def Progress.task? : Progress → Option Task
  | waiting task => some task
  | done _ => none

/-! ### The controller -/

namespace Controller

/-- The controller once a refresh has started: its number is taken, and the placeholder is shown. -/
def loading (c : Controller) : Controller :=
  { c with generation := c.generation + 1, feed := c.feed.prepend Post.placeholder }

/-- Under a standard bar, every refresh has a feed to fetch. -/
theorem refresh_of_standard {c : Controller} (h : c.nav.Standard) (purpose : Purpose) :
  c.refresh purpose
    = (c.loading, .fetching ⟨Endpoint.ofSession c.session, c.generation + 1, purpose⟩)
  := by
  have hfeed : (Endpoint.ofSession c.session).isEmpty = false := h.isEmpty_ofSession c.user
  rw [refresh, hfeed]
  rfl

/-- A refresh changes the number of refreshes and the feed, whether or not there is one to fetch. -/
theorem refresh_fst (c : Controller) (purpose : Purpose) :
  (c.refresh purpose).1 = c.loading
  := by
  rw [refresh]
  split <;> rfl

/-- A fetched feed changes no more than the feed on display. -/
theorem receive_generation (c : Controller) (fetch : Fetch) (reply : Reply) :
  (c.receive fetch reply).1.generation = c.generation
  := by
  cases reply with
  | failed => rfl
  | succeeded posts =>
      rw [receive]
      split <;> rfl

/-- A fetched feed of a superseded refresh changes nothing. -/
theorem receive_of_ne {c : Controller} {fetch : Fetch} (h : c.generation ≠ fetch.generation)
    (reply : Reply) :
  (c.receive fetch reply).1 = c
  := by
  cases reply with
  | failed => rfl
  | succeeded posts => rw [receive, if_neg h]

/-- How a fetch ends depends on nothing but the number of the last refresh. -/
theorem receive_snd_congr {c c' : Controller} (h : c.generation = c'.generation) (fetch : Fetch)
    (reply : Reply) :
  (c.receive fetch reply).2 = (c'.receive fetch reply).2
  := by
  cases reply with
  | failed => rfl
  | succeeded posts =>
      rw [receive, receive, h]
      split <;> rfl

end Controller

/-! ### The desk -/

namespace Desk

@[simp]
theorem file_controller (desk : Desk) (name : String) (result : Controller × Progress) :
  (desk.file name result).1.controller = result.1
  := by
  obtain ⟨c, _ | _⟩ := result <;> rfl

@[simp]
theorem file_progress (desk : Desk) (name : String) (result : Controller × Progress) :
  (desk.file name result).2 = result.2
  := by
  obtain ⟨c, _ | _⟩ := result <;> rfl

private theorem lookup_waiting_cons (key other : String) (task : Task)
    (rest : List (String × Task)) :
  ((key, task) :: rest).lookup other = if other = key then some task else rest.lookup other
  := by
  rw [List.lookup_cons]
  by_cases h : other = key
  · rw [if_pos h, beq_iff_eq.mpr h]
  · rw [if_neg h, beq_eq_false_iff_ne.mpr h]

/-- Forgetting what waits under one name leaves what waits under the others. -/
private theorem lookup_waiting_filter (waiting : List (String × Task)) (name other : String) :
  (waiting.filter fun entry => entry.1 != name).lookup other
    = if other = name then none else waiting.lookup other
  := by
  induction waiting with
  | nil => simp
  | cons entry rest ih =>
      obtain ⟨key, task⟩ := entry
      rw [List.filter_cons, lookup_waiting_cons]
      by_cases hkey : key = name
      · subst hkey
        rw [if_neg (by simp), ih]
        by_cases hother : other = key
        · rw [if_pos hother, if_pos hother]
        · rw [if_neg hother, if_neg hother, if_neg hother]
      · rw [if_pos (by simpa using hkey), lookup_waiting_cons, ih]
        by_cases hother : other = key
        · rw [if_pos hother, if_pos hother, if_neg (hother ▸ hkey)]
        · rw [if_neg hother, if_neg hother]

/-- Filing changes what waits under its own name and under no other. -/
theorem task?_file (desk : Desk) (name other : String) (result : Controller × Progress) :
  (desk.file name result).1.task? other
    = if other = name then result.2.task? else desk.task? other
  := by
  obtain ⟨c, task | outcome⟩ := result
  · rw [file, task?, lookup_waiting_cons, lookup_waiting_filter]
    split
    · rfl
    · rfl
  · apply lookup_waiting_filter

/-- The name under which a step acts. -/
def Step.name : Step → String
  | begin name _ => name
  | reply name _ => name

theorem step_begin (desk : Desk) (name : String) (action : Action) :
  desk.step (.begin name action)
    = ((desk.file name (desk.controller.begin action)).1, some (desk.controller.begin action).2)
  := by
  simp only [step, file_progress]

theorem step_reply {desk : Desk} {name : String} {task : Task} (h : desk.task? name = some task)
    (reply : Reply) :
  desk.step (.reply name reply)
    = ((desk.file name (desk.controller.deliver task reply)).1,
        some (desk.controller.deliver task reply).2)
  := by
  simp only [step, h, file_progress]

theorem step_reply_of_none {desk : Desk} {name : String} (h : desk.task? name = none)
    (reply : Reply) :
  desk.step (.reply name reply) = (desk, none)
  := by
  rw [step, h]

/-- A reply to a task that waits for a feed ends it. -/
theorem step_reply_fetch {desk : Desk} {name : String} {fetch : Fetch}
    (h : desk.task? name = some (.fetch fetch)) (reply : Reply) :
  desk.step (.reply name reply)
    = (⟨(desk.controller.receive fetch reply).1,
          desk.waiting.filter fun entry => entry.1 != name⟩,
        some (.done (desk.controller.receive fetch reply).2))
  := by
  rw [step_reply h]
  rfl

/-- A step decides what waits under its own name, and touches no other task. -/
theorem task?_step (desk : Desk) (step : Step) (other : String) :
  (desk.step step).1.task? other
    = if other = step.name then (desk.step step).2.bind Progress.task? else desk.task? other
  := by
  cases step with
  | begin name action =>
      rw [step_begin]
      apply task?_file
  | reply name reply =>
      cases h : desk.task? name with
      | none =>
          rw [step_reply_of_none h]
          split
          · next hother => rw [hother, Step.name, h]; rfl
          · rfl
      | some task =>
          rw [step_reply h]
          apply task?_file

theorem task?_step_self (desk : Desk) (step : Step) :
  (desk.step step).1.task? step.name = (desk.step step).2.bind Progress.task?
  := by
  rw [task?_step, if_pos rfl]

theorem task?_step_of_ne (desk : Desk) (step : Step) {name : String} (h : name ≠ step.name) :
  (desk.step step).1.task? name = desk.task? name
  := by
  rw [task?_step, if_neg h]

/-- What a step can do: the controller that it leaves, and how far it brings the action under its
name. -/
inductive Effect (desk : Desk) : Step → Controller → Option Progress → Prop
  /-- Nothing waits for the reply. -/
  | ignored {name : String} (reply : Reply) (h : desk.task? name = none) :
    Effect desk (.reply name reply) desk.controller none
  /-- An action begins with a mutation. -/
  | called (name : String) (action : Action) (change : Change) :
    Effect desk (.begin name action) desk.controller (some (.waiting (.change change)))
  /-- An action ends without a refresh. -/
  | ended (step : Step) (accepted : Bool) :
    Effect desk step desk.controller (some (.done (.acted accepted none)))
  /-- A refresh starts, perhaps after the user or the view has been switched. -/
  | started (step : Step) (user : String) (nav : NavBar) (purpose : Purpose) (h : nav.Standard) :
    Effect desk step { desk.controller with user, nav }.loading
      (some (.waiting (.fetch ⟨Endpoint.ofSession ⟨nav.activeLabel, user⟩,
        desk.controller.generation + 1, purpose⟩)))
  /-- A fetch fails. -/
  | failed {name : String} {fetch : Fetch} (h : desk.task? name = some (.fetch fetch)) :
    Effect desk (.reply name .failed) desk.controller
      (some (.done (fetch.purpose.outcome .failed)))
  /-- A feed arrives after a newer refresh has started. -/
  | stale {name : String} {fetch : Fetch} (posts : List Post)
      (h : desk.task? name = some (.fetch fetch))
      (hnumber : desk.controller.generation ≠ fetch.generation) :
    Effect desk (.reply name (.succeeded posts)) desk.controller
      (some (.done (fetch.purpose.outcome .stale)))
  /-- The feed of the last refresh arrives. -/
  | applied {name : String} {fetch : Fetch} (posts : List Post)
      (h : desk.task? name = some (.fetch fetch))
      (hnumber : desk.controller.generation = fetch.generation) :
    Effect desk (.reply name (.succeeded posts))
      { desk.controller with feed := desk.controller.feed.replaceAll posts }
      (some (.done (fetch.purpose.outcome (.applied posts.length))))

/-- Beginning an action has one of the effects. -/
theorem effect_begin {desk : Desk} (h : desk.controller.nav.Standard) (name : String)
    (action : Action) :
  Effect desk (.begin name action) (desk.controller.begin action).1
    (some (desk.controller.begin action).2)
  := by
  cases action with
  | post contents => apply Effect.called
  | delete tag =>
      rw [Controller.begin]
      cases PostKey.parse (Tag.stem tag) with
      | ok key => apply Effect.called
      | error e => apply Effect.ended
  | subscribe tag => apply Effect.called
  | unsubscribe tag => apply Effect.called
  | subscribeUser target => apply Effect.called
  | unsubscribeUser target => apply Effect.called
  | register => apply Effect.called
  | switchView label =>
      simp only [Controller.begin]
      rw [Controller.refresh_of_standard (h.activate label)]
      apply Effect.started _ desk.controller.user _ _ (h.activate label)
  | switchUser user =>
      have huser : Controller.nav { desk.controller with user } |>.Standard := h
      simp only [Controller.begin]
      rw [Controller.refresh_of_standard huser]
      apply Effect.started _ user _ _ h
  | refresh =>
      simp only [Controller.begin]
      rw [Controller.refresh_of_standard h]
      apply Effect.started _ desk.controller.user _ _ h

/-- Delivering a reply has one of the effects. -/
theorem effect_deliver {desk : Desk} (h : desk.controller.nav.Standard) {name : String}
    {task : Task} (htask : desk.task? name = some task) (reply : Reply) :
  Effect desk (.reply name reply) (desk.controller.deliver task reply).1
    (some (desk.controller.deliver task reply).2)
  := by
  cases task with
  | change change =>
      simp only [Controller.deliver, Controller.settle]
      split
      · rw [Controller.refresh_of_standard h]
        apply Effect.started _ desk.controller.user _ _ h
      · apply Effect.ended
  | fetch fetch =>
      cases reply with
      | failed => apply Effect.failed htask
      | succeeded posts =>
          simp only [Controller.deliver, Controller.receive]
          split
          · next hnumber => apply Effect.applied posts htask hnumber
          · next hnumber => apply Effect.stale posts htask hnumber

/-- Every step has one of the effects. -/
theorem effect_step {desk : Desk} (h : desk.controller.nav.Standard) (step : Step) :
  Effect desk step (desk.step step).1.controller (desk.step step).2
  := by
  cases step with
  | begin name action =>
      rw [step_begin, file_controller]
      apply effect_begin h
  | reply name reply =>
      cases htask : desk.task? name with
      | none =>
          rw [step_reply_of_none htask]
          apply Effect.ignored reply htask
      | some task =>
          rw [step_reply htask, file_controller]
          apply effect_deliver h htask

/-- Every step keeps the bar standard. -/
theorem standard_step {desk : Desk} (h : desk.controller.nav.Standard) (step : Step) :
  (desk.step step).1.controller.nav.Standard
  := by
  have heffect := effect_step h step
  generalize (desk.step step).1.controller = c, (desk.step step).2 = progress at heffect ⊢
  cases heffect with
  | started _ user nav purpose hnav => apply hnav
  | _ => apply h

end Desk

end FeedClient
