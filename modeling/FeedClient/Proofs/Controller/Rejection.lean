import FeedClient.Proofs.Controller.Protocol
import Mathlib.Data.List.TakeWhile

/-!
# Rejected actions are invisible

An action that fetches no feed changes nothing but what waits under its own name. So a run in which
the server rejects it differs from the run without it in the steps of this action and in nothing
else: every other step meets and leaves the same controller, makes the same call and ends in the
same way.

The run without an action is read off the run with it. `transitions` records every step with the
controllers on both sides of it, `answered` picks the replies to the action out of what follows its
beginning, and `spared` is what they leave.
-/

namespace FeedClient

/-- How the replies to an action reject it: the mutation fails and the policy does not want a fetch
after that, or the action is a deletion without a key. -/
inductive Rejected (policy : RefreshPolicy) : Action → List Reply → Prop
  | ignored {tag : String} (hmark : ¬ PostKey.mark.toList <:+: tag.toList)
      (replies : List Reply) :
    Rejected policy (.delete tag) replies
  | failed {user : String} {action : Action} {mutation : Mutation}
      (h : Carries user action mutation) (hpolicy : ¬ action.Insists policy) (rest : List Reply) :
    Rejected policy action (.failed :: rest)

/-- A deletion that carries a mutation has the mark of post keys in its tag. -/
theorem Carries.infix_of_delete {user : String} {mutation : Mutation} {tag : String}
    (h : Carries user (.delete tag) mutation) :
  PostKey.mark.toList <:+: tag.toList
  := by
  cases h with
  | delete hmark hkey => apply hmark

/-- What fetches at once is not rejected. -/
theorem Fetches.not_rejected {policy : RefreshPolicy} {action : Action}
    {outcome : RefreshOutcome → Outcome} (h : Fetches action outcome) (replies : List Reply) :
  ¬ Rejected policy action replies
  := by
  intro hrejected
  cases hrejected with
  | ignored hmark replies => cases h
  | failed hcarries hpolicy rest => cases hcarries <;> cases h

namespace Desk

/-! ### Runs without an action -/

/-- Whether a step begins an action under a name. -/
def Step.begins (name : String) : Step → Bool
  | .begin other _ => other == name
  | .reply _ _ => false

/-- The steps up to the next action under a name. -/
def tenure (name : String) (later : List Step) : List Step :=
  later.takeWhile fun step => !step.begins name

/-- A step with the controllers that it meets and leaves, and how far it brings the action under its
name. -/
structure Transition extends Event where
  before : Controller
  after : Controller
deriving DecidableEq, Repr

def transition (desk : Desk) (step : Step) : Transition :=
  ⟨⟨step, (desk.step step).2⟩, desk.controller, (desk.step step).1.controller⟩

/-- The transitions of a sequence of steps. -/
def transitions (desk : Desk) : List Step → List Transition
  | [] => []
  | step :: rest => desk.transition step :: (desk.step step).1.transitions rest

/-- The replies to the action under a name, up to the next action under this name. -/
def answered (name : String) : List Transition → List Transition
  | [] => []
  | t :: rest =>
    if t.step.begins name then []
    else if t.step.name = name then t :: answered name rest
    else answered name rest

/-- What the replies to the action under a name leave of what happens. -/
def spared (name : String) : List Transition → List Transition
  | [] => []
  | t :: rest =>
    if t.step.begins name then t :: rest
    else if t.step.name = name then spared name rest
    else t :: spared name rest

theorem map_step_transitions (desk : Desk) (steps : List Step) :
  (desk.transitions steps).map (·.step) = steps
  := by
  induction steps generalizing desk with
  | nil => rfl
  | cons step rest ih => rw [transitions, List.map_cons, ih, transition]

theorem name_of_begins {name : String} {step : Step} (h : step.begins name) :
  step.name = name
  := by
  cases step with
  | begin other action => exact beq_iff_eq.mp h
  | reply other reply => cases h

/-! ### Desks that look alike -/

/-- Two desks that differ in nothing but the tasks under hidden names. -/
structure Alike (hidden : String → Prop) (desk desk' : Desk) : Prop where
  controller : desk.controller = desk'.controller
  task? : ∀ {name : String}, ¬ hidden name → desk.task? name = desk'.task? name

namespace Alike

variable {hidden hidden' : String → Prop} {desk desk' : Desk}

theorem mono (h : Alike hidden desk desk') (hmono : ∀ name, hidden name → hidden' name) :
  Alike hidden' desk desk'
  where
  controller := h.controller
  task? := by
    intro name hname
    apply h.task? (mt (hmono name) hname)

/-- Unless it replies to a hidden task, a step does the same at desks that are alike. -/
theorem transition_eq (h : Alike hidden desk desk') {step : Step}
    (hstep : hidden step.name → step.begins step.name) :
  desk.transition step = desk'.transition step
  := by
  cases step with
  | begin name action =>
      rw [transition, transition, step_begin, step_begin, file_controller, file_controller,
        h.controller]
  | reply name reply =>
      have htask : desk.task? name = desk'.task? name := by
        apply h.task?
        intro hhidden
        cases hstep hhidden
      rw [transition, transition, h.controller]
      cases hwait : desk.task? name with
      | none =>
          rw [step_reply_of_none hwait, step_reply_of_none (htask ▸ hwait), h.controller]
      | some task =>
          rw [step_reply hwait, step_reply (htask ▸ hwait), file_controller, file_controller,
            h.controller]

/-- Such a step leaves desks that are alike, and what waits under its own name is hidden no more. -/
theorem step (h : Alike hidden desk desk') {step : Step}
    (hstep : hidden step.name → step.begins step.name) :
  Alike (fun name => hidden name ∧ name ≠ step.name) (desk.step step).1 (desk'.step step).1
  where
  controller := congrArg Transition.after (h.transition_eq hstep)
  task? := by
    intro name hname
    have hprogress : (desk.step step).2 = (desk'.step step).2 :=
      congrArg (fun t => t.progress) (h.transition_eq hstep)
    rw [task?_step, task?_step, hprogress]
    split
    · rfl
    · next hne =>
        apply h.task?
        intro hhidden
        exact hname ⟨hhidden, hne⟩

/-- Desks at which nothing is hidden go through the same transitions. -/
theorem transitions_eq (h : Alike (fun _ => False) desk desk') (steps : List Step) :
  desk.transitions steps = desk'.transitions steps
  := by
  induction steps generalizing desk desk' with
  | nil => rfl
  | cons step rest ih =>
      have hnext : Alike (fun _ => False) (desk.step step).1 (desk'.step step).1 :=
        (h.step False.elim).mono fun name hname => hname.1
      rw [transitions, transitions, h.transition_eq False.elim, ih hnext]

end Alike

/-! ### Actions that fetch nothing -/

/-- Among what happens under a name, no feed is fetched. -/
def Unfetched (account : List Moment) : Prop :=
  ∀ endpoint, .fetch endpoint ∉ account.filterMap Moment.call?

theorem Unfetched.tail {m : Moment} {account : List Moment} (h : Unfetched (m :: account)) :
  Unfetched account
  := by
  intro endpoint hmem
  apply h endpoint
  obtain ⟨m', hm', hcall⟩ := List.mem_filterMap.mp hmem
  exact List.mem_filterMap.mpr ⟨m', List.mem_cons_of_mem _ hm', hcall⟩

theorem Unfetched.head {m : Moment} {account : List Moment} (h : Unfetched (m :: account))
    (fetch : Fetch) :
  m.progress ≠ some (.waiting (.fetch fetch))
  := by
  intro hprogress
  apply h fetch.endpoint
  apply List.mem_filterMap.mpr
  use m, List.mem_cons_self
  rw [Moment.call?, hprogress]
  rfl

/-- A step that leaves no task waiting for a feed, and replies to none, changes nothing. -/
theorem Effect.controller_of_unfetched {desk : Desk} {step : Step} {c : Controller}
    {progress : Option Progress} (heffect : Effect desk step c progress)
    (htask : ∀ name reply fetch, step = .reply name reply → desk.task? name ≠ some (.fetch fetch))
    (hprogress : ∀ fetch, progress ≠ some (.waiting (.fetch fetch))) :
  c = desk.controller
  := by
  cases heffect with
  | ignored reply h => rfl
  | called name action change => rfl
  | ended step accepted => rfl
  | started step user nav purpose h => exact absurd rfl (hprogress _)
  | failed h => rfl
  | stale posts h hnumber => rfl
  | applied posts h hnumber => exact absurd h (htask _ _ _ rfl)

theorem task?_step_of_unfetched (desk : Desk) (step : Step)
    (h : ∀ fetch, (desk.step step).2 ≠ some (.waiting (.fetch fetch))) (fetch : Fetch) :
  (desk.step step).1.task? step.name ≠ some (.fetch fetch)
  := by
  rw [task?_step_self]
  intro heq
  obtain ⟨progress, hprogress, htask⟩ := Option.bind_eq_some_iff.mp heq
  cases progress with
  | waiting task =>
      obtain rfl := Option.some.inj htask
      exact h fetch hprogress
  | done outcome => cases htask

/-- The replies to the action under a name change nothing, and without them everything else happens
as it happens with them. -/
structure Invisible (name : String) (ts : List Transition) (desk' : Desk) : Prop where
  unchanged : ∀ t ∈ answered name ts, t.after = t.before
  spared : desk'.transitions ((spared name ts).map (·.step)) = spared name ts

section

variable {desk desk' : Desk} {name : String} {step : Step} (rest : List Step)

/-- The next action under a name takes the place of whatever waits under it. -/
theorem Invisible.begins (halike : Alike (· = name) desk desk') (hbegins : step.begins name) :
  Invisible name (desk.transition step :: (desk.step step).1.transitions rest) desk'
  := by
  have hname := name_of_begins hbegins
  have hmeets : step.name = name → step.begins step.name := by
    intro _
    rw [hname]
    apply hbegins
  have hnext : Alike (fun _ => False) (desk.step step).1 (desk'.step step).1 := by
    apply (halike.step hmeets).mono
    rintro other ⟨rfl, hne⟩
    exact hne hname.symm
  have hstep : (desk.transition step).step.begins name := hbegins
  constructor
  · intro t hmem
    rw [answered, if_pos hstep] at hmem
    cases hmem
  · rw [Desk.spared, if_pos hstep, List.map_cons, map_step_transitions, transitions,
      hnext.transitions_eq rest, halike.transition_eq hmeets]
    rfl

/-- A reply to the action under a name that changes nothing can be left out. -/
theorem Invisible.own (hbegins : step.begins name = false) (hname : step.name = name)
    (hcontroller : (desk.step step).1.controller = desk.controller)
    (h : Invisible name ((desk.step step).1.transitions rest) desk') :
  Invisible name (desk.transition step :: (desk.step step).1.transitions rest) desk'
  := by
  have hstep : ¬ (desk.transition step).step.begins name := Bool.not_eq_true _ ▸ hbegins
  have hname' : (desk.transition step).step.name = name := hname
  constructor
  · intro t hmem
    rw [answered, if_neg hstep, if_pos hname'] at hmem
    obtain rfl | hmem := List.mem_cons.mp hmem
    · apply hcontroller
    · apply h.unchanged t hmem
  · rw [Desk.spared, if_neg hstep, if_pos hname']
    apply h.spared

/-- What happens under another name happens also without the action. -/
theorem Invisible.other (halike : Alike (· = name) desk desk') (hname : step.name ≠ name)
    (h : Invisible name ((desk.step step).1.transitions rest) (desk'.step step).1) :
  Invisible name (desk.transition step :: (desk.step step).1.transitions rest) desk'
  := by
  have hstep : ¬ (desk.transition step).step.begins name := mt name_of_begins hname
  have hname' : (desk.transition step).step.name ≠ name := hname
  constructor
  · rw [answered, if_neg hstep, if_neg hname']
    apply h.unchanged
  · have heq : desk.transition step = desk'.transition step := by
      apply halike.transition_eq
      intro h
      contradiction
    rw [Desk.spared, if_neg hstep, if_neg hname', List.map_cons, heq]
    apply congrArg (desk'.transition step :: ·) h.spared

end

theorem tenure_cons {name : String} {step : Step} (h : step.begins name = false)
    (rest : List Step) :
  tenure name (step :: rest) = step :: tenure name rest
  := by
  rw [tenure, List.takeWhile_cons, h]
  rfl

/-- As long as an action fetches nothing it is invisible. -/
theorem Invisible.of_unfetched {desk desk' : Desk} {name : String}
    (halike : Alike (· = name) desk desk') (hnav : desk.controller.nav.Standard)
    (htask : ∀ fetch, desk.task? name ≠ some (.fetch fetch)) (later : List Step)
    (hunfetched : Unfetched (desk.account name (tenure name later))) :
  Invisible name (desk.transitions later) desk'
  := by
  induction later generalizing desk desk' with
  | nil =>
      constructor
      · intro t hmem
        cases hmem
      · rfl
  | cons step rest ih =>
      have hnav' := standard_step hnav step
      rw [transitions]
      cases hbegins : step.begins name with
      | true => apply Invisible.begins rest halike hbegins
      | false =>
          rw [tenure_cons hbegins] at hunfetched
          by_cases hname : step.name = name
          · subst hname
            rw [account_cons_self desk rfl] at hunfetched
            have hprogress := hunfetched.head
            have hcontroller := (effect_step hnav step).controller_of_unfetched (by
              rintro other reply fetch rfl
              apply htask) hprogress
            apply Invisible.own rest hbegins rfl hcontroller
            apply ih _ hnav' (task?_step_of_unfetched desk step hprogress) hunfetched.tail
            constructor
            · rw [hcontroller]
              apply halike.controller
            · intro other hother
              rw [task?_step_of_ne desk step hother]
              apply halike.task? hother
          · rw [account_cons_of_ne desk hname] at hunfetched
            apply Invisible.other rest halike hname
            apply ih _ hnav' _ hunfetched
            · apply (halike.step (fun h => absurd h hname)).mono
              intro other hother
              apply hother.1
            · rw [task?_step_of_ne desk step (Ne.symm hname)]
              apply htask

/-! ### Which actions fetch nothing -/

/-- The actions that end without a fetch are those that are rejected. -/
theorem Course.rejected_iff {user : String} {policy : RefreshPolicy} {begun : Session}
    {action : Action} {arrivals : List Arrival} {calls : List Call} {outcomes : List Outcome}
    (h : Course user policy begun action arrivals calls outcomes) :
  (outcomes ≠ [] ∧ ∀ endpoint, .fetch endpoint ∉ calls)
    ↔ Rejected policy action (arrivals.map Prod.fst)
  := by
  cases h with
  | ignored hmark arrivals =>
      constructor
      · intro _
        apply Rejected.ignored hmark
      · intro _
        simp
  | called hcarries =>
      constructor
      · rintro ⟨houtcome, -⟩
        contradiction
      · intro hrejected
        cases hrejected with
        | ignored hmark replies => exact absurd hcarries.infix_of_delete hmark
  | @settled _ mutation hcarries reply hrefresh session rest =>
      constructor
      · intro _
        cases reply with
        | failed =>
            apply Rejected.failed hcarries
            intro hinsists
            apply hrefresh (.inr hinsists)
        | succeeded posts => exact absurd (.inl rfl) hrefresh
      · intro _
        simp
  | @refreshed _ mutation hcarries reply hrefresh session rest outcomes hfetch =>
      constructor
      · rintro ⟨-, hcalls⟩
        exact absurd (by simp) (hcalls (Endpoint.ofSession session))
      · intro hrejected
        cases hrejected with
        | ignored hmark replies => exact absurd hcarries.infix_of_delete hmark
        | failed hcarries' hpolicy rest =>
            obtain haccepted | hinsists := hrefresh
            · cases haccepted
            · contradiction
  | fetched hfetches hfetch =>
      constructor
      · rintro ⟨-, hcalls⟩
        exact absurd (by simp) (hcalls (Endpoint.ofSession begun))
      · intro hrejected
        exact absurd hrejected (hfetches.not_rejected _)

theorem not_mem_tenure (name : String) (action : Action) (later : List Step) :
  .begin name action ∉ tenure name later
  := by
  intro hmem
  have hbegins := List.mem_takeWhile_imp hmem
  simp [Step.begins] at hbegins

/-- As long as an action has fetched nothing, its steps change nothing, and everything else happens
as it happens without them. -/
theorem transitions_of_unfetched {desk : Desk} (hnav : desk.controller.nav.Standard) (name : String)
    (action : Action) (later : List Step)
    (hunfetched : Unfetched (desk.account name (.begin name action :: tenure name later))) :
  let begun := desk.transition (.begin name action)
  let rest := (desk.step (.begin name action)).1.transitions later
  (∀ t ∈ begun :: answered name rest, t.after = t.before)
    ∧ desk.transitions ((spared name rest).map (·.step)) = spared name rest
  := by
  intro begun rest
  rw [account_begin] at hunfetched
  have hprogress := hunfetched.head
  have hcontroller : (desk.step (.begin name action)).1.controller = desk.controller := by
    apply (effect_step hnav (.begin name action)).controller_of_unfetched
    · intro other reply fetch heq
      cases heq
    · rw [step_begin]
      apply hprogress
  have halike : Alike (· = name) (desk.step (.begin name action)).1 desk := by
    constructor
    · apply hcontroller
    · intro other hother
      apply task?_step_of_ne desk (.begin name action) hother
  have htask : ∀ fetch, (desk.step (.begin name action)).1.task? name ≠ some (.fetch fetch) := by
    apply task?_step_of_unfetched desk (.begin name action)
    rw [step_begin]
    apply hprogress
  have hinvisible :=
    Invisible.of_unfetched halike (standard_step hnav _) htask later hunfetched.tail
  constructor
  · intro t hmem
    obtain rfl | hmem := List.mem_cons.mp hmem
    · apply hcontroller
    · apply hinvisible.unchanged t hmem
  · apply hinvisible.spared

/-- An action that ends without a fetch is one that is rejected. As long as an action has fetched
nothing, its steps change nothing, and the run without them goes through the same transitions: all
other actions meet and leave the same controllers, make the same calls and end in the same way. -/
theorem rejected_run (user : String) (view : View) (policy : RefreshPolicy) (steps : List Step)
    (name : String) (action : Action) (later : List Step) :
  let desk := (start user view policy).run steps
  let account := desk.account name (.begin name action :: tenure name later)
  let begun := desk.transition (.begin name action)
  let rest := (desk.step (.begin name action)).1.transitions later
  (account.filterMap Moment.outcome? ≠ [] ∧ Unfetched account
      ↔ Rejected policy action ((account.filterMap Moment.arrival?).map Prod.fst))
    ∧ (Unfetched account →
      (∀ t ∈ begun :: answered name rest, t.after = t.before)
        ∧ desk.transitions ((spared name rest).map (·.step)) = spared name rest)
  := by
  intro desk account begun rest
  have hreached := reached_run user view policy steps
  have hcourse := course_account hreached.accords.standard name action (tenure name later)
    (fun action => not_mem_tenure name action later)
  rw [hreached.policy] at hcourse
  exact ⟨Course.rejected_iff hcourse,
    transitions_of_unfetched hreached.accords.standard name action later⟩

/-- While Ann's feed is fetched, the server refuses to delete a post; the feed arrives as if the
deletion had never been begun. -/
theorem rejected_deletion :
  let desk := (start "ann" .home {}).run [.begin "feed" .refresh]
  let later : List Step := [.reply "key" .failed, .reply "feed" (.succeeded [.placeholder])]
  let deletion : Step := .begin "key" (.delete "ann:post_1f.c")
  let rest := (desk.step deletion).1.transitions later
  (desk.account "key" (deletion :: tenure "key" later)).filterMap Moment.call?
      = [.mutate (.deletePost "ann" (.of "ann" "1f"))]
    ∧ (spared "key" rest).map (·.step) = [.reply "feed" (.succeeded [.placeholder])]
    ∧ desk.transitions ((spared "key" rest).map (·.step)) = spared "key" rest
  := by
  intro desk later deletion rest
  have hcalls : (desk.account "key" (deletion :: tenure "key" later)).filterMap Moment.call?
      = [.mutate (.deletePost "ann" (.of "ann" "1f"))] := by
    decide
  refine ⟨hcalls, by decide, ?_⟩
  apply ((rejected_run "ann" .home {} [.begin "feed" .refresh] "key" (.delete "ann:post_1f.c")
    later).2 _).2
  intro endpoint hmem
  rw [hcalls] at hmem
  simp at hmem

end Desk

end FeedClient
