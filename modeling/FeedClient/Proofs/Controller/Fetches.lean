import FeedClient.Proofs.Controller.Session
import FeedClient.Proofs.Controller.Protocol

/-!
# Every refresh fetches a feed

A refresh that finds no feed to fetch would end without a call. It never does: the navigation bar
stays standard whatever text a view is switched to, and a standard bar always shows a view.
`Desk.Starts` says which steps start a refresh, by the action that begins or the reply that arrives.
Each of them calls for one fetch, from the endpoint of the session that it leaves, and no other step
calls for any; so the fetches of a run carry the numbers of its refreshes, each number once.
-/

namespace FeedClient

namespace Desk

/-! ### Which steps start a refresh -/

/-- A step that starts a refresh: an action begins that fetches at once, or a mutation is answered
that is followed by a refresh. -/
inductive Starts (desk : Desk) : Step → Prop
  | begun (name : String) {action : Action} {outcome : RefreshOutcome → Outcome}
      (h : Fetches action outcome) :
    Starts desk (.begin name action)
  | settled {name : String} {change : Change} (hwait : desk.task? name = some (.change change))
      {reply : Reply} (hrefresh : change.refreshOn.refreshes reply.accepted = true) :
    Starts desk (.reply name reply)

/-- The gateway call that an event makes. -/
def Event.call? (e : Event) : Option Call :=
  (e.progress.bind Progress.task?).map Task.call

/-- The fetch that an event calls for. -/
def Event.fetch? (e : Event) : Option Fetch :=
  match e.progress with
  | some (.waiting (.fetch fetch)) => some fetch
  | _ => none

/-- The fetches of a history, the latest first. -/
def History.fetches (h : History) : List Fetch :=
  h.filterMap Event.fetch?

theorem Event.fetch?_eq_some_iff (e : Event) (fetch : Fetch) :
  e.fetch? = some fetch ↔ e.progress.bind Progress.task? = some (.fetch fetch)
  := by
  obtain ⟨step, _ | (_ | _) | _⟩ := e <;> simp [fetch?, Progress.task?]

/-- An event makes the call of its fetch. -/
theorem Event.call?_eq_fetch_iff (e : Event) (endpoint : Endpoint) :
  e.call? = some (.fetch endpoint) ↔ e.fetch?.map Fetch.endpoint = some endpoint
  := by
  obtain ⟨step, _ | (_ | _) | _⟩ := e <;> simp [call?, fetch?, Progress.task?, Task.call]

/-- A step that starts a refresh fetches the feed of the session that it leaves. -/
theorem Starts.fetch? {desk : Desk} (hnav : desk.controller.nav.Standard) {step : Step}
    (h : Starts desk step) :
  (Event.mk step (desk.step step).2).fetch?.map Fetch.endpoint
    = some (Endpoint.ofSession (desk.step step).1.controller.session)
  := by
  cases h with
  | begun name hfetches =>
      obtain ⟨fetch, hbegin, hendpoint, -⟩ := Controller.begin_of_fetches hnav hfetches
      rw [step_begin, file_controller, hbegin, ← hendpoint]
      rfl
  | settled hwait hrefresh =>
      rw [step_reply hwait, file_controller, Controller.deliver, Controller.settle, if_pos hrefresh,
        Controller.refresh_of_standard hnav]
      rfl

/-- No other step calls for a fetch. -/
theorem starts_of_fetch? {desk : Desk} {step : Step} {fetch : Fetch}
    (h : (Event.mk step (desk.step step).2).fetch? = some fetch) :
  Starts desk step
  := by
  cases step with
  | begin name action =>
      rw [step_begin] at h
      obtain ⟨mutation, hcarries⟩ | ⟨outcome, hfetches⟩ | ⟨tag, rfl, hmark⟩ :=
        action.kinds desk.controller.user
      · obtain ⟨on, hbegin, -⟩ := Controller.begin_of_carries hcarries
        rw [hbegin] at h
        cases h
      · apply Starts.begun name hfetches
      · rw [Controller.begin_of_not_infix _ hmark] at h
        cases h
  | reply name reply =>
      cases hwait : desk.task? name with
      | none =>
          rw [step_reply_of_none hwait] at h
          cases h
      | some task =>
          rw [step_reply hwait] at h
          cases task with
          | fetch fetch => cases h
          | change change =>
              cases hrefresh : change.refreshOn.refreshes reply.accepted with
              | true => apply Starts.settled hwait hrefresh
              | false =>
                  rw [Controller.deliver, Controller.settle, hrefresh] at h
                  cases h

/-- The steps that start a refresh are those that call for a fetch. -/
theorem starts_iff {desk : Desk} (hnav : desk.controller.nav.Standard) (step : Step) :
  Starts desk step ↔ (Event.mk step (desk.step step).2).fetch?.isSome
  := by
  constructor
  · intro h
    have hfetch := h.fetch? hnav
    rw [Option.map_eq_some_iff] at hfetch
    obtain ⟨fetch, hfetch, -⟩ := hfetch
    rw [hfetch, Option.isSome_some]
  · intro h
    obtain ⟨fetch, hfetch⟩ := Option.isSome_iff_exists.mp h
    apply starts_of_fetch? hfetch

/-! ### The endpoint of a refresh -/

/-- No step ends an action for want of a feed. -/
theorem Effect.refreshed?_ne {desk : Desk} {step : Step} {c : Controller}
    {progress : Option Progress} (heffect : Effect desk step c progress) :
  progress.bind Progress.refreshed? ≠ some .noEndpoint
  := by
  cases heffect <;> simp [Progress.refreshed?]

/-- A refresh starts with its fetch, and in no other way. -/
theorem Effect.start?_eq {desk : Desk} {step : Step} {c : Controller}
    {progress : Option Progress} (heffect : Effect desk step c progress) :
  (Event.mk step progress).start? = (Event.mk step progress).fetch?.map Fetch.endpoint
  := by
  cases heffect <;> simp [Event.start?, Event.fetch?]

/-- The generation counts the fetches that a step calls for. -/
theorem generation_step {desk : Desk} (hnav : desk.controller.nav.Standard) (step : Step) :
  (desk.step step).1.controller.generation = desk.controller.generation
    + if (Event.mk step (desk.step step).2).fetch?.isSome then 1 else 0
  := by
  have heffect := effect_step hnav step
  rw [← Option.isSome_map, ← heffect.start?_eq]
  apply heffect.generation

/-- A step that starts a refresh makes one call, for the feed of the view and the user that it
leaves. -/
theorem Starts.calls {desk : Desk} (hnav : desk.controller.nav.Standard) {step : Step}
    (h : Starts desk step) :
  let c' := (desk.step step).1.controller
  c'.generation = desk.controller.generation + 1
    ∧ (Event.mk step (desk.step step).2).call?
      = some (.fetch ⟨if c'.nav.activeLabel = "MyTimeline" then "/timeline" else "/home", c'.user⟩)
  := by
  constructor
  · rw [generation_step hnav, if_pos ((starts_iff hnav step).mp h)]
  · rw [Event.call?_eq_fetch_iff, h.fetch? hnav]
    congr 1
    apply (standard_step hnav step).ofSession_eq

/-- Any other step fetches nothing. -/
theorem calls_of_not_starts {desk : Desk} (hnav : desk.controller.nav.Standard) {step : Step}
    (h : ¬ Starts desk step) :
  (desk.step step).1.controller.generation = desk.controller.generation
    ∧ ∀ endpoint, (Event.mk step (desk.step step).2).call? ≠ some (.fetch endpoint)
  := by
  constructor
  · rw [generation_step hnav, if_neg (mt (starts_iff hnav step).mpr h), Nat.add_zero]
  · intro endpoint hcall
    rw [Event.call?_eq_fetch_iff, Option.map_eq_some_iff] at hcall
    obtain ⟨fetch, hfetch, -⟩ := hcall
    apply h (starts_of_fetch? hfetch)

/-! ### Whole runs -/

/-- So many of the steps that are taken from a desk start a refresh. -/
inductive Refreshing : Desk → List Step → Nat → Prop
  | nil (desk : Desk) : Refreshing desk [] 0
  | starting {desk : Desk} {step : Step} {rest : List Step} {count : Nat} (h : Starts desk step)
      (hrest : Refreshing (desk.step step).1 rest count) :
    Refreshing desk (step :: rest) (count + 1)
  | other {desk : Desk} {step : Step} {rest : List Step} {count : Nat} (h : ¬ Starts desk step)
      (hrest : Refreshing (desk.step step).1 rest count) :
    Refreshing desk (step :: rest) count

/-- The refreshes that a history counts are the steps that start one. -/
theorem refreshing_started {desk : Desk} (hnav : desk.controller.nav.Standard)
    (steps : List Step) :
  Refreshing desk steps (desk.history steps).started
  := by
  induction steps generalizing desk with
  | nil => apply Refreshing.nil
  | cons step rest ih =>
      have hrest := ih (standard_step hnav step)
      have hstart : (Event.mk step (desk.step step).2).start?.isSome
          = (Event.mk step (desk.step step).2).fetch?.isSome := by
        rw [(effect_step hnav step).start?_eq, Option.isSome_map]
      rw [history, History.started, List.countP_append, List.countP_singleton, hstart]
      by_cases h : Starts desk step
      · rw [if_pos ((starts_iff hnav step).mp h)]
        apply Refreshing.starting h hrest
      · rw [if_neg (mt (starts_iff hnav step).mpr h)]
        apply Refreshing.other h hrest

/-- The fetches of a run carry the numbers of its refreshes, each number once. -/
theorem Reached.generation_fetches {user : String} {view : View} {policy : RefreshPolicy}
    {desk : Desk} {h : History} (hreached : Reached user view policy desk h) :
  h.fetches.map Fetch.generation = (List.range' 1 desk.controller.generation).reverse
  := by
  induction hreached with
  | start => rfl
  | @step desk h hreached step ih =>
      have hnav := hreached.accords.standard
      rw [generation_step hnav, History.fetches]
      cases hfetch : (Event.mk step (desk.step step).2).fetch? with
      | none =>
          rw [List.filterMap_cons_none hfetch]
          apply ih
      | some fetch =>
          have hnumber := (effect_step hnav step).generation_of_task?
            ((Event.fetch?_eq_some_iff _ fetch).mp hfetch)
          rw [List.filterMap_cons_some hfetch, List.map_cons, hnumber, Option.isSome_some,
            if_pos rfl, List.range'_1_concat, List.reverse_concat, Nat.add_comm 1]
          congr 1

/-- No event of a run ends an action for want of a feed. -/
theorem Reached.refreshed?_ne {user : String} {view : View} {policy : RefreshPolicy}
    {desk : Desk} {h : History} (hreached : Reached user view policy desk h) :
  ∀ e ∈ h, e.progress.bind Progress.refreshed? ≠ some .noEndpoint
  := by
  induction hreached with
  | start =>
      intro e hmem
      cases hmem
  | step hreached step ih =>
      intro e hmem
      obtain rfl | hmem := List.mem_cons.mp hmem
      · apply (effect_step hreached.accords.standard step).refreshed?_ne
      · apply ih e hmem

/-- Whatever texts the view is switched to, at most one tab is on. -/
theorem Reached.exclusive {user : String} {view : View} {policy : RefreshPolicy} {desk : Desk}
    {h : History} (hreached : Reached user view policy desk h) :
  desk.controller.nav.Exclusive
  := by
  induction hreached with
  | start => apply NavBar.exclusive_ofView
  | @step desk h hreached step ih =>
      rw [(user_nav_step desk step).2]
      cases step.label? with
      | none => apply ih
      | some label => apply hreached.accords.standard.exclusive_activate

/-- However a client is used, its bar keeps the three tabs with at most one of them on, and there is
a feed to fetch. Every step that starts a refresh makes one call, for the feed of the view and the
user that it leaves, and no other step fetches anything; the fetches of the run are those of its
refreshes, one for each. -/
theorem fetch_calls_run (user : String) (view : View) (policy : RefreshPolicy)
    (steps : List Step) :
  let desk := (start user view policy).run steps
  let h := (start user view policy).history steps
  let c := desk.controller
  c.nav.controls.map NavControl.label = ["Home", "MyTimeline", "Discover"]
    ∧ c.nav.controls.countP NavControl.on ≤ 1
    ∧ (Endpoint.ofSession c.session).isEmpty = false
    ∧ (∀ e ∈ h, e.progress.bind Progress.refreshed? ≠ some .noEndpoint)
    ∧ (∀ step,
      let c' := (desk.step step).1.controller
      let e : Event := ⟨step, (desk.step step).2⟩
      let path := if c'.nav.activeLabel = "MyTimeline" then "/timeline" else "/home"
      c'.user = step.user?.getD c.user
        ∧ (Starts desk step →
          c'.generation = c.generation + 1 ∧ e.call? = some (.fetch ⟨path, c'.user⟩))
        ∧ (¬ Starts desk step →
          c'.generation = c.generation ∧ ∀ endpoint, e.call? ≠ some (.fetch endpoint)))
    ∧ h.fetches.map Fetch.generation = (List.range' 1 c.generation).reverse
  := by
  intro desk h c
  have hreached : Reached user view policy desk h := reached_run user view policy steps
  have hnav : c.nav.Standard := hreached.accords.standard
  refine ⟨hnav, hreached.exclusive, hnav.isEmpty_ofSession c.user, hreached.refreshed?_ne, ?_,
    hreached.generation_fetches⟩
  intro step
  use (user_nav_step desk step).1, Starts.calls hnav
  apply calls_of_not_starts hnav

/-- Ann subscribes to Cat; before the server refuses, the view is switched to her timeline and the
user to nobody, whose timeline it is then that is fetched, and by this one call. -/
theorem fetch_calls_nobody :
  let steps : List Step := [.begin "a" (.subscribeUser "cat"),
    .begin "b" (.switchView " MyTimeline\t"), .begin "c" (.switchUser "")]
  let desk := (start "ann" .discover {}).run steps
  let refused : Step := .reply "a" .failed
  let answered : Step := .reply "b" (.succeeded [])
  Starts desk refused
    ∧ (Event.mk refused (desk.step refused).2).call? = some (.fetch ⟨"/timeline", ""⟩)
    ∧ ¬ Starts desk answered
    ∧ (desk.step answered).1.controller.generation = 2
  := by
  intro steps desk refused answered
  have hcalls := (fetch_calls_run "ann" .discover {} steps).2.2.2.2.1
  have hchange : desk.task? "a" = some (.change ⟨.subscribe "ann" "cat", .always⟩) := by
    decide
  have hrefused : Starts desk refused := by
    apply Starts.settled hchange
    rfl
  have hfetch : desk.task? "b" = some (.fetch ⟨⟨"/timeline", "ann"⟩, 1, .action true⟩) := by
    decide
  have hanswered : ¬ Starts desk (.reply "b" (.succeeded [])) := by
    intro h
    cases h with
    | settled hwait hrefresh =>
        rw [hfetch] at hwait
        cases hwait
  refine ⟨hrefused, ?_, hanswered, ?_⟩
  · rw [((hcalls refused).2.1 hrefused).2]
    decide
  · rw [((hcalls answered).2.2 hanswered).1]
    decide

end Desk

end FeedClient
