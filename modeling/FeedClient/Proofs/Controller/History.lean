import FeedClient.Proofs.Controller.Step

/-!
# The history of a run

A history records the steps of a run, the latest first, each with how far it brought the action
under its name. Refreshes are numbered here by counting the steps that started one, without looking
at the controller: `History.started` counts them, `History.under?` is the refresh that a waiting
task belongs to, and `History.showings` lists the refreshes whose feeds were put on display.

`Desk.Reached.accords` says that the controller keeps the same numbers: its generation is the count
of refreshes, and every task that waits for a feed carries the number and the endpoint of its
refresh.
-/

namespace FeedClient

namespace Desk

/-! ### Histories -/

/-- A step that was taken, and how far it brought the action under its name. -/
structure Event where
  step : Step
  progress : Option Progress
deriving DecidableEq, Repr

/-- The events of a run, the latest first. -/
abbrev History :=
  List Event

/-- The history of a sequence of steps. -/
def history (desk : Desk) : List Step → History
  | [] => []
  | step :: rest => (desk.step step).1.history rest ++ [⟨step, (desk.step step).2⟩]

/-- The desk of a client that has just been started. -/
def start (user : String) (view : View) (policy : RefreshPolicy) : Desk :=
  ofController (Controller.start user view policy)

/-- A desk that a client reaches by taking steps, and the history of those steps. -/
inductive Reached (user : String) (view : View) (policy : RefreshPolicy) :
    Desk → History → Prop
  | start : Reached user view policy (start user view policy) []
  | step {desk : Desk} {h : History} (hreached : Reached user view policy desk h) (step : Step) :
    Reached user view policy (desk.step step).1 (⟨step, (desk.step step).2⟩ :: h)

theorem Reached.run {user : String} {view : View} {policy : RefreshPolicy} {desk : Desk}
    {h : History} (hreached : Reached user view policy desk h) (steps : List Step) :
  Reached user view policy (desk.run steps) (desk.history steps ++ h)
  := by
  induction steps generalizing desk h with
  | nil => apply hreached
  | cons step rest ih =>
      rw [history, List.append_assoc]
      apply ih
      apply Reached.step hreached step

/-- Every run reaches its last desk with its history. -/
theorem reached_run (user : String) (view : View) (policy : RefreshPolicy) (steps : List Step) :
  Reached user view policy ((start user view policy).run steps)
    ((start user view policy).history steps)
  := by
  have hrun := Reached.run (@Reached.start user view policy) steps
  rw [List.append_nil] at hrun
  apply hrun

/-! ### Refreshes -/

/-- A refresh: its number, counted from one in the order in which refreshes start, and the endpoint
that it fetches from. -/
structure Refresh where
  number : Nat
  endpoint : Endpoint
deriving DecidableEq, Repr

/-- No refresh at all: its number is one that no refresh has. -/
def Refresh.nothing : Refresh :=
  ⟨0, Endpoint.empty⟩

/-- The endpoint of the refresh that an event started, if it started one: it waits for a feed, or it
found that there is none to fetch. -/
def Event.start? (e : Event) : Option Endpoint :=
  match e.progress with
  | some (.waiting (.fetch fetch)) => some fetch.endpoint
  | some (.done outcome) =>
    if outcome.refresh? = some .noEndpoint then some Endpoint.empty else none
  | _ => none

namespace History

/-- How many refreshes have started. -/
def started (h : History) : Nat :=
  h.countP fun e => e.start?.isSome

/-- The refresh that an event starts when it comes after a history. -/
def next? (h : History) (e : Event) : Option Refresh :=
  e.start?.map (Refresh.mk (h.started + 1))

/-- The refresh that started last. -/
def last? : History → Option Refresh
  | [] => none
  | e :: h => (next? h e).or (last? h)

/-- The refresh that the last step under a name started, if it started one. -/
def under? (name : String) : History → Option Refresh
  | [] => none
  | e :: h => if e.step.name = name then next? h e else under? name h

theorem started_cons (e : Event) (h : History) :
  started (e :: h) = h.started + if e.start?.isSome then 1 else 0
  := List.countP_cons

theorem started_le_cons (e : Event) (h : History) :
  h.started ≤ started (e :: h)
  := by
  rw [started_cons]
  apply Nat.le_add_right

/-- A refresh that an event starts takes the number that the count of refreshes then reaches. -/
theorem number_of_next? {h : History} {e : Event} {refresh : Refresh}
    (hnext : next? h e = some refresh) :
  refresh.number = h.started + 1 ∧ started (e :: h) = h.started + 1
  := by
  obtain ⟨endpoint, he, rfl⟩ := Option.map_eq_some_iff.mp hnext
  use rfl
  rw [started_cons, he]
  rfl

/-- Refreshes are numbered from one up to how many have started. -/
theorem number_of_under? {h : History} {name : String} {refresh : Refresh}
    (hunder : under? name h = some refresh) :
  0 < refresh.number ∧ refresh.number ≤ h.started
  := by
  induction h with
  | nil => simp [under?] at hunder
  | cons e h ih =>
      rw [under?] at hunder
      split at hunder
      · obtain ⟨hnumber, hcount⟩ := number_of_next? hunder
        omega
      · have hle := started_le_cons e h
        obtain ⟨hpos, hnumber⟩ := ih hunder
        omega

/-- No two names stand for refreshes of one number. -/
theorem under?_injective {h : History} {name name' : String} {refresh refresh' : Refresh}
    (hunder : under? name h = some refresh) (hunder' : under? name' h = some refresh')
    (hnumber : refresh.number = refresh'.number) :
  name = name'
  := by
  induction h with
  | nil => simp [under?] at hunder
  | cons e h ih =>
      rw [under?] at hunder hunder'
      -- the refresh of the latest event has a greater number than those before it
      split at hunder <;> split at hunder'
      · next hname hname' => rw [← hname, hname']
      · have hnew := (number_of_next? hunder).1
        have hold := (number_of_under? hunder').2
        omega
      · have hnew := (number_of_next? hunder').1
        have hold := (number_of_under? hunder).2
        omega
      · apply ih hunder hunder'

/-- The refresh with the greatest number is the one that started last. -/
theorem last?_of_under? {h : History} {name : String} {refresh : Refresh}
    (hunder : under? name h = some refresh) (hnumber : refresh.number = h.started) :
  h.last? = some refresh
  := by
  induction h with
  | nil => simp [under?] at hunder
  | cons e h ih =>
      rw [under?] at hunder
      rw [last?]
      split at hunder
      · rw [hunder, Option.some_or]
      · have hle := (number_of_under? hunder).2
        rw [started_cons] at hnumber
        cases he : e.start? with
        | none =>
            rw [next?, he, Option.map_none, Option.none_or]
            apply ih hunder
            simpa [he] using hnumber
        | some endpoint =>
            simp only [he, Option.isSome_some, if_true] at hnumber
            omega

end History

/-! ### Feeds on display -/

/-- The feed that an event put on display, and the name under which it was awaited. -/
def Event.shown? (e : Event) : Option (String × List Post) :=
  match e.progress.bind Progress.refreshed?, e.step with
  | some (.applied _), .reply name (.succeeded posts) => some (name, posts)
  | _, _ => none

/-- A feed that was put on display, and the refresh that fetched it. -/
structure Showing where
  refresh : Refresh
  posts : List Post
deriving DecidableEq, Repr

/-- What is on display before any feed has been fetched. -/
def Showing.nothing : Showing :=
  ⟨Refresh.nothing, []⟩

namespace History

/-- What an event puts on display when it comes after a history. -/
def showing? (h : History) (e : Event) : Option Showing :=
  e.shown?.map fun (name, posts) => ⟨(h.under? name).getD .nothing, posts⟩

/-- The feeds that were put on display, the latest first. -/
def showings : History → List Showing
  | [] => []
  | e :: h => (showing? h e).toList ++ showings h

/-- The feed that was put on display last. -/
def shown (h : History) : Showing :=
  h.showings.headD .nothing

theorem last?_cons_of_none {h : History} {e : Event} (he : e.start? = none) :
  last? (e :: h) = h.last?
  := by
  rw [last?, next?, he, Option.map_none, Option.none_or]

theorem last?_cons_of_some {h : History} {e : Event} {endpoint : Endpoint}
    (he : e.start? = some endpoint) :
  last? (e :: h) = some ⟨h.started + 1, endpoint⟩
  := by
  rw [last?, next?, he, Option.map_some, Option.some_or]

theorem showings_cons_of_none {h : History} {e : Event} (he : e.shown? = none) :
  showings (e :: h) = h.showings
  := by
  rw [showings, showing?, he]
  rfl

theorem showings_cons_of_some {h : History} {e : Event} {name : String} {posts : List Post}
    {refresh : Refresh} (he : e.shown? = some (name, posts))
    (hunder : h.under? name = some refresh) :
  showings (e :: h) = ⟨refresh, posts⟩ :: h.showings
  := by
  simp only [showings, showing?, he, Option.map_some, hunder]
  rfl

end History

/-! ### The numbers of the controller -/

/-- The controller keeps the numbers of a history. -/
structure Accords (desk : Desk) (h : History) : Prop where
  standard : desk.controller.nav.Standard
  generation : desk.controller.generation = h.started
  /-- What waits for a feed carries the number and the endpoint of its refresh. -/
  waiting : ∀ {name : String} {fetch : Fetch}, desk.task? name = some (.fetch fetch) →
    h.under? name = some ⟨fetch.generation, fetch.endpoint⟩

/-- A step that leaves a task waiting for a feed has started a refresh. -/
theorem Event.start?_of_task? {e : Event} {fetch : Fetch}
    (h : e.progress.bind Progress.task? = some (.fetch fetch)) :
  e.start? = some fetch.endpoint
  := by
  obtain ⟨step, _ | _ | _⟩ := e
  · cases h
  · obtain rfl := Option.some.inj h
    rfl
  · cases h

/-- A task that a step leaves waiting for a feed carries the next number. -/
theorem Effect.generation_of_task? {desk : Desk} {step : Step} {c : Controller}
    {progress : Option Progress} (heffect : Effect desk step c progress) {fetch : Fetch}
    (h : progress.bind Progress.task? = some (.fetch fetch)) :
  fetch.generation = desk.controller.generation + 1
  := by
  cases heffect with
  | started step user nav purpose hnav =>
      obtain rfl := Task.fetch.inj (Option.some.inj h)
      rfl
  | _ => cases h

/-- The generation counts the refreshes that a step starts. -/
theorem Effect.generation {desk : Desk} {step : Step} {c : Controller}
    {progress : Option Progress} (heffect : Effect desk step c progress) :
  c.generation = desk.controller.generation
    + if (Event.mk step progress).start?.isSome then 1 else 0
  := by
  cases heffect <;> simp [Event.start?, Controller.loading]

namespace Accords

theorem start (user : String) (view : View) (policy : RefreshPolicy) :
  Accords (Desk.start user view policy) []
  where
  standard := NavBar.standard_ofView view
  generation := rfl
  waiting := by
    intro name fetch h
    cases h

/-- Every step keeps the numbers. -/
theorem step {desk : Desk} {h : History} (ha : Accords desk h) (step : Step) :
  Accords (desk.step step).1 (⟨step, (desk.step step).2⟩ :: h)
  where
  standard := standard_step ha.standard step
  generation := by
    rw [(effect_step ha.standard step).generation, ha.generation, History.started_cons]
  waiting := by
    intro name fetch hwait
    rw [task?_step] at hwait
    rw [History.under?]
    by_cases hname : name = step.name
    · rw [if_pos hname] at hwait
      rw [if_pos hname.symm, History.next?, Event.start?_of_task? hwait,
        (effect_step ha.standard step).generation_of_task? hwait, ha.generation]
      rfl
    · rw [if_neg hname] at hwait
      rw [if_neg (Ne.symm hname)]
      apply ha.waiting hwait

/-- What waits for a feed after a step has waited before, or carries the next number. -/
theorem waiting_step {desk : Desk} {h : History} (ha : Accords desk h) {step : Step}
    {name : String} {fetch : Fetch} (hwait : (desk.step step).1.task? name = some (.fetch fetch)) :
  desk.task? name = some (.fetch fetch) ∨ fetch.generation = h.started + 1
  := by
  rw [task?_step] at hwait
  split at hwait
  · right
    rw [(effect_step ha.standard step).generation_of_task? hwait, ha.generation]
  · left
    apply hwait

/-- A task that waits for a feed belongs to one of the refreshes that have started. -/
theorem generation_le {desk : Desk} {h : History} (ha : Accords desk h) {name : String}
    {fetch : Fetch} (hwait : desk.task? name = some (.fetch fetch)) :
  fetch.generation ≤ h.started
  := (History.number_of_under? (ha.waiting hwait)).2

/-- Tasks that wait for the feeds of one refresh are one task. -/
theorem generation_injective {desk : Desk} {h : History} (ha : Accords desk h)
    {name name' : String} {fetch fetch' : Fetch}
    (hwait : desk.task? name = some (.fetch fetch))
    (hwait' : desk.task? name' = some (.fetch fetch'))
    (hnumber : fetch.generation = fetch'.generation) :
  name = name'
  := by
  apply History.under?_injective (ha.waiting hwait) (ha.waiting hwait') hnumber

end Accords

/-- What a step does to the feed on display, and what the history says of it. -/
inductive Advance (desk : Desk) (h : History) (desk' : Desk) (h' : History) : Prop
  /-- No refresh starts and no feed is put on display. -/
  | quiet (hcontroller : desk'.controller = desk.controller) (hstarted : h'.started = h.started)
      (hlast : h'.last? = h.last?) (hshowings : h'.showings = h.showings)
  /-- A refresh of the session starts. -/
  | started (user : String) (nav : NavBar)
      (hcontroller : desk'.controller = { desk.controller with user, nav }.loading)
      (hstarted : h'.started = h.started + 1)
      (hlast : h'.last? = some ⟨h.started + 1, Endpoint.ofSession desk'.controller.session⟩)
      (hshowings : h'.showings = h.showings)
  /-- The feed of the last refresh is put on display, and nothing waits for it any more. -/
  | shown (name : String) (fetch : Fetch) (posts : List Post)
      (hwait : desk.task? name = some (.fetch fetch)) (hdone : desk'.task? name = none)
      (hnumber : fetch.generation = h.started)
      (hcontroller : desk'.controller
        = { desk.controller with feed := desk.controller.feed.replaceAll posts })
      (hstarted : h'.started = h.started) (hlast : h'.last? = h.last?)
      (hshowings : h'.showings = ⟨⟨fetch.generation, fetch.endpoint⟩, posts⟩ :: h.showings)

/-- A step that neither starts a refresh nor puts a feed on display leaves the history's account of
both as it is. -/
theorem Advance.of_none {desk desk' : Desk} {h : History} {e : Event}
    (hcontroller : desk'.controller = desk.controller) (hstart : e.start? = none)
    (hshown : e.shown? = none) :
  Advance desk h desk' (e :: h)
  := by
  apply Advance.quiet hcontroller
  · rw [History.started_cons, hstart]
    rfl
  · apply History.last?_cons_of_none hstart
  · apply History.showings_cons_of_none hshown

/-- A step puts at most one feed on display: that of the last refresh, which was waited for and is
so no more. -/
theorem Advance.showings {desk desk' : Desk} {h h' : History}
    (hadvance : Advance desk h desk' h') :
  h'.showings = h.showings
    ∨ ∃ name fetch posts, desk.task? name = some (.fetch fetch) ∧ desk'.task? name = none
      ∧ fetch.generation = h.started
      ∧ h'.showings = ⟨⟨fetch.generation, fetch.endpoint⟩, posts⟩ :: h.showings
  := by
  cases hadvance with
  | quiet hcontroller hstarted hlast hshowings =>
      left
      apply hshowings
  | started user nav hcontroller hstarted hlast hshowings =>
      left
      apply hshowings
  | shown name fetch posts hwait hdone hnumber hcontroller hstarted hlast hshowings =>
      right
      use name, fetch, posts

/-- Every step advances a run in one of these ways. -/
theorem Accords.advance {desk : Desk} {h : History} (ha : Accords desk h) (step : Step) :
  Advance desk h (desk.step step).1 (⟨step, (desk.step step).2⟩ :: h)
  := by
  have heffect := effect_step ha.standard step
  have htask := task?_step desk step step.name
  generalize (desk.step step).2 = progress, (desk.step step).1 = desk' at heffect htask ⊢
  generalize hc : desk'.controller = c at heffect
  cases heffect with
  | ignored reply hnone => apply Advance.of_none hc <;> rfl
  | called name action change => apply Advance.of_none hc <;> rfl
  | ended step accepted =>
      apply Advance.of_none hc
      · simp [Event.start?]
      · simp [Event.shown?]
  | started step user nav purpose hnav =>
      apply Advance.started user nav hc
      · rw [History.started_cons]
        rfl
      · rw [hc]
        apply History.last?_cons_of_some rfl
      · apply History.showings_cons_of_none rfl
  | failed hwait =>
      apply Advance.of_none hc
      · simp [Event.start?]
      · simp [Event.shown?]
  | stale posts hwait hnumber =>
      apply Advance.of_none hc
      · simp [Event.start?]
      · simp [Event.shown?]
  | @applied name fetch posts hwait hnumber =>
      rw [if_pos rfl] at htask
      apply Advance.shown name fetch posts hwait htask (hnumber.symm.trans ha.generation) hc
      · rw [History.started_cons]
        simp [Event.start?]
      · apply History.last?_cons_of_none
        simp [Event.start?]
      · apply History.showings_cons_of_some _ (ha.waiting hwait)
        simp [Event.shown?]

/-- Whatever steps are taken, the controller keeps the numbers of their history. -/
theorem Reached.accords {user : String} {view : View} {policy : RefreshPolicy} {desk : Desk}
    {h : History} (hreached : Reached user view policy desk h) :
  Accords desk h
  := by
  induction hreached with
  | start => apply Accords.start
  | step hreached step ih => apply ih.step

end Desk

end FeedClient
