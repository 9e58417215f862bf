import FeedClient.Proofs.Controller.History
import FeedClient.Proofs.Text

/-!
# The calls of an action

An action makes at most two calls: a mutation in the name of the user who began it, and a fetch of
the feed that the session shows at the time when the fetch starts. Which of them are made depends on
the action, on the reply to the mutation and on the policy, and on nothing that other actions do in
the meantime. `Course` lists the ways in which an action can go, and `Desk.course_run` says that
there are no others.
-/

namespace FeedClient

/-! ### The course of an action -/

/-- The mutation that an action asks for, in the name of a user. A deletion asks for one when the
mark of post keys stands in its tag. -/
inductive Carries (user : String) : Action → Mutation → Prop
  | post (contents : String) : Carries user (.post contents) (.createPost user contents)
  | delete {tag : String} {key : PostKey} (hmark : PostKey.mark.toList <:+: tag.toList)
      (hkey : key.text = Tag.stem tag) :
    Carries user (.delete tag) (.deletePost user key)
  | subscribe (tag : String) : Carries user (.subscribe tag) (.subscribe user (Tag.author tag))
  | unsubscribe (tag : String) :
    Carries user (.unsubscribe tag) (.unsubscribe user (Tag.author tag))
  | subscribeUser (target : String) : Carries user (.subscribeUser target) (.subscribe user target)
  | unsubscribeUser (target : String) :
    Carries user (.unsubscribeUser target) (.unsubscribe user target)
  | register : Carries user .register (.createUser user)

/-- An action that fetches a feed at once, and its outcome by that of the refresh. -/
inductive Fetches : Action → (RefreshOutcome → Outcome) → Prop
  | switchView (label : String) : Fetches (.switchView label) fun o => .acted true (some o)
  | switchUser (user : String) : Fetches (.switchUser user) fun o => .acted true (some o)
  | refresh : Fetches .refresh .refreshed

/-- The policy wants the feed to be fetched even if the mutation of an action is rejected. -/
def Action.Insists (policy : RefreshPolicy) : Action → Prop
  | .subscribe _ | .subscribeUser _ => policy.subscribe = .always
  | .unsubscribe _ | .unsubscribeUser _ => policy.unsubscribe = .always
  | _ => False

/-- How a refresh ends by the reply to its fetch. -/
inductive Fetched : Reply → RefreshOutcome → Prop
  | failed : Fetched .failed .failed
  | applied (posts : List Post) : Fetched (.succeeded posts) (.applied posts.length)
  | stale (posts : List Post) : Fetched (.succeeded posts) .stale

/-- A reply that arrives, and the session at that time. -/
abbrev Arrival : Type :=
  Reply × Session

/-- How a fetch goes on: it waits, or ends the action with the first reply. -/
inductive Completes (outcome : RefreshOutcome → Outcome) : List Arrival → List Outcome → Prop
  | waiting : Completes outcome [] []
  | over {reply : Reply} {o : RefreshOutcome} (h : Fetched reply o) (session : Session)
      (rest : List Arrival) :
    Completes outcome ((reply, session) :: rest) [outcome o]

/-- How an action goes that a user begins under a policy, and that leaves a session: by the replies
that arrive for it, the calls that it makes and the outcomes that it has. -/
inductive Course (user : String) (policy : RefreshPolicy) (begun : Session) :
    Action → List Arrival → List Call → List Outcome → Prop
  /-- A deletion without a key. -/
  | ignored {tag : String} (hmark : ¬ PostKey.mark.toList <:+: tag.toList)
      (arrivals : List Arrival) :
    Course user policy begun (.delete tag) arrivals [] [.acted false none]
  /-- The mutation has no reply yet. -/
  | called {action : Action} {mutation : Mutation} (h : Carries user action mutation) :
    Course user policy begun action [] [.mutate mutation] []
  /-- The mutation is not followed by a refresh. -/
  | settled {action : Action} {mutation : Mutation} (h : Carries user action mutation)
      {reply : Reply} (hrefresh : ¬ (reply.accepted ∨ action.Insists policy)) (session : Session)
      (rest : List Arrival) :
    Course user policy begun action ((reply, session) :: rest) [.mutate mutation]
      [.acted reply.accepted none]
  /-- The mutation is followed by a refresh of the session at the time of its reply. -/
  | refreshed {action : Action} {mutation : Mutation} (h : Carries user action mutation)
      {reply : Reply} (hrefresh : reply.accepted ∨ action.Insists policy) (session : Session)
      {rest : List Arrival} {outcomes : List Outcome}
      (hfetch : Completes (fun o => .acted reply.accepted (some o)) rest outcomes) :
    Course user policy begun action ((reply, session) :: rest)
      [.mutate mutation, .fetch (Endpoint.ofSession session)] outcomes
  /-- The action is nothing but a refresh, perhaps after a switch. -/
  | fetched {action : Action} {outcome : RefreshOutcome → Outcome} (h : Fetches action outcome)
      {arrivals : List Arrival} {outcomes : List Outcome}
      (hfetch : Completes outcome arrivals outcomes) :
    Course user policy begun action arrivals [.fetch (Endpoint.ofSession begun)] outcomes

/-- Every action carries a mutation, fetches at once or is a deletion without a key. -/
theorem Action.kinds (user : String) (action : Action) :
  (∃ mutation, Carries user action mutation) ∨ (∃ outcome, Fetches action outcome)
    ∨ ∃ tag, action = .delete tag ∧ ¬ PostKey.mark.toList <:+: tag.toList
  := by
  cases action with
  | post contents => exact .inl ⟨_, .post contents⟩
  | delete tag =>
      by_cases hmark : PostKey.mark.toList <:+: tag.toList
      · obtain ⟨key, -, hkey⟩ := PostKey.parse_stem_of_occurs (Text.occurs_iff_infix.mpr hmark)
        exact .inl ⟨_, .delete hmark hkey⟩
      · exact .inr (.inr ⟨tag, rfl, hmark⟩)
  | subscribe tag => exact .inl ⟨_, .subscribe tag⟩
  | unsubscribe tag => exact .inl ⟨_, .unsubscribe tag⟩
  | subscribeUser target => exact .inl ⟨_, .subscribeUser target⟩
  | unsubscribeUser target => exact .inl ⟨_, .unsubscribeUser target⟩
  | register => exact .inl ⟨_, .register⟩
  | switchView label => exact .inr (.inl ⟨_, .switchView label⟩)
  | switchUser user => exact .inr (.inl ⟨_, .switchUser user⟩)
  | refresh => exact .inr (.inl ⟨_, .refresh⟩)

/-! ### How actions begin -/

theorem RefreshOn.refreshes_iff (on : RefreshOn) (accepted : Bool) :
  on.refreshes accepted ↔ accepted ∨ on = .always
  := by
  cases on <;> simp [refreshes]

theorem RefreshOn.success_refreshes_iff (accepted : Bool) :
  success.refreshes accepted ↔ accepted ∨ False
  := by
  simp [refreshes]

namespace Controller

/-- An action that carries a mutation begins with it, and knows when a refresh follows. -/
theorem begin_of_carries {c : Controller} {action : Action} {mutation : Mutation}
    (h : Carries c.user action mutation) :
  ∃ on : RefreshOn, c.begin action = (c, .waiting (.change ⟨mutation, on⟩))
    ∧ ∀ accepted : Bool, on.refreshes accepted ↔ accepted ∨ action.Insists c.policy
  := by
  cases h with
  | post contents => exact ⟨_, rfl, RefreshOn.success_refreshes_iff⟩
  | @delete tag key hmark hkey =>
      obtain ⟨key', hparse, hkey'⟩ :=
        PostKey.parse_stem_of_occurs (Text.occurs_iff_infix.mpr hmark)
      obtain rfl : key' = key := by
        cases key
        cases key'
        simp_all
      use .success
      simp only [begin, hparse]
      exact ⟨trivial, RefreshOn.success_refreshes_iff⟩
  | subscribe tag => exact ⟨_, rfl, RefreshOn.refreshes_iff _⟩
  | unsubscribe tag => exact ⟨_, rfl, RefreshOn.refreshes_iff _⟩
  | subscribeUser target => exact ⟨_, rfl, RefreshOn.refreshes_iff _⟩
  | unsubscribeUser target => exact ⟨_, rfl, RefreshOn.refreshes_iff _⟩
  | register => exact ⟨_, rfl, RefreshOn.success_refreshes_iff⟩

/-- An action that fetches at once fetches the feed of the session that it leaves. -/
theorem begin_of_fetches {c : Controller} (hnav : c.nav.Standard) {action : Action}
    {outcome : RefreshOutcome → Outcome} (h : Fetches action outcome) :
  ∃ fetch, (c.begin action).2 = .waiting (.fetch fetch)
    ∧ fetch.endpoint = Endpoint.ofSession (c.begin action).1.session
    ∧ fetch.purpose.outcome = outcome
  := by
  cases h with
  | switchView label =>
      simp only [begin]
      rw [refresh_of_standard (hnav.activate label)]
      exact ⟨_, rfl, rfl, rfl⟩
  | switchUser user =>
      have huser : Controller.nav { c with user } |>.Standard := hnav
      simp only [begin]
      rw [refresh_of_standard huser]
      exact ⟨_, rfl, rfl, rfl⟩
  | refresh =>
      simp only [begin]
      rw [refresh_of_standard hnav]
      exact ⟨_, rfl, rfl, rfl⟩

theorem begin_of_not_infix (c : Controller) {tag : String}
    (h : ¬ PostKey.mark.toList <:+: tag.toList) :
  c.begin (.delete tag) = (c, .done (.acted false none))
  := by
  rw [← Text.occurs_iff_infix, Bool.not_eq_true] at h
  simp only [begin, PostKey.parse_stem_of_not_occurs h]

/-- A fetch ends as its reply says. -/
theorem receive_fetched (c : Controller) (fetch : Fetch) (reply : Reply) :
  ∃ o, Fetched reply o ∧ (c.receive fetch reply).2 = fetch.purpose.outcome o
  := by
  cases reply with
  | failed => exact ⟨_, .failed, rfl⟩
  | succeeded posts =>
      rw [receive]
      split
      · exact ⟨_, .applied posts, rfl⟩
      · exact ⟨_, .stale posts, rfl⟩

end Controller

/-! ### What happens under a name -/

namespace Desk

/-- A step with how far it brings the action under its name, and the session that it meets. -/
structure Moment extends Event where
  session : Session
deriving DecidableEq, Repr

/-- The reply that arrives. -/
def Moment.arrival? (m : Moment) : Option Arrival :=
  match m.step with
  | .begin _ _ => none
  | .reply _ reply => some (reply, m.session)

/-- The call that is made. -/
def Moment.call? (m : Moment) : Option Call :=
  match m.progress with
  | some (.waiting task) => some task.call
  | _ => none

/-- The outcome of the action, if it ends. -/
def Moment.outcome? (m : Moment) : Option Outcome :=
  match m.progress with
  | some (.done outcome) => some outcome
  | _ => none

/-- What happens under a name while steps are taken, under this name and others. -/
def account (desk : Desk) (name : String) : List Step → List Moment
  | [] => []
  | step :: rest =>
    let (desk', progress) := desk.step step
    if step.name = name then
      ⟨⟨step, progress⟩, desk.controller.session⟩ :: desk'.account name rest
    else desk'.account name rest

theorem account_cons_of_ne (desk : Desk) {name : String} {step : Step} (h : step.name ≠ name)
    (rest : List Step) :
  desk.account name (step :: rest) = (desk.step step).1.account name rest
  := if_neg h

theorem account_cons_self (desk : Desk) {name : String} {step : Step} (h : step.name = name)
    (rest : List Step) :
  desk.account name (step :: rest)
    = ⟨⟨step, (desk.step step).2⟩, desk.controller.session⟩ :: (desk.step step).1.account name rest
  := if_pos h

/-- How an action goes on from the task that it has left waiting, if any. -/
inductive Continues : Option Task → List Arrival → List Call → List Outcome → Prop
  | idle (arrivals : List Arrival) : Continues none arrivals [] []
  | fetching {fetch : Fetch} {arrivals : List Arrival} {outcomes : List Outcome}
      (h : Completes fetch.purpose.outcome arrivals outcomes) :
    Continues (some (.fetch fetch)) arrivals [] outcomes
  | changing (change : Change) : Continues (some (.change change)) [] [] []
  | settled {change : Change} {reply : Reply}
      (hrefresh : change.refreshOn.refreshes reply.accepted = false) (session : Session)
      (rest : List Arrival) :
    Continues (some (.change change)) ((reply, session) :: rest) [] [.acted reply.accepted none]
  | refreshed {change : Change} {reply : Reply}
      (hrefresh : change.refreshOn.refreshes reply.accepted = true) (session : Session)
      {rest : List Arrival} {outcomes : List Outcome}
      (h : Completes (Purpose.action reply.accepted).outcome rest outcomes) :
    Continues (some (.change change)) ((reply, session) :: rest)
      [.fetch (Endpoint.ofSession session)] outcomes

/-- What a reply adds to how an action goes on after it. -/
theorem Continues.reply {desk : Desk} (hnav : desk.controller.nav.Standard) {name : String}
    {reply : Reply} {arrivals : List Arrival} {calls : List Call} {outcomes : List Outcome}
    (h : Continues ((desk.step (.reply name reply)).2.bind Progress.task?) arrivals calls
      outcomes) :
  let m : Moment :=
    ⟨⟨.reply name reply, (desk.step (.reply name reply)).2⟩, desk.controller.session⟩
  Continues (desk.task? name) ((reply, desk.controller.session) :: arrivals)
    (m.call?.toList ++ calls) (m.outcome?.toList ++ outcomes)
  := by
  cases htask : desk.task? name with
  | none =>
      rw [step_reply_of_none htask] at h ⊢
      cases h
      apply Continues.idle
  | some task =>
      rw [step_reply htask] at h ⊢
      cases task with
      | fetch fetch =>
          obtain ⟨o, hfetched, ho⟩ := desk.controller.receive_fetched fetch reply
          cases h
          simp only [Controller.deliver, ho]
          exact .fetching (.over hfetched _ _)
      | change change =>
          simp only [Controller.deliver, Controller.settle] at h ⊢
          cases hrefresh : change.refreshOn.refreshes reply.accepted with
          | false =>
              rw [hrefresh] at h
              cases h
              exact .settled hrefresh _ _
          | true =>
              rw [hrefresh, if_pos rfl, Controller.refresh_of_standard hnav] at h
              rw [if_pos rfl, Controller.refresh_of_standard hnav]
              cases h with
              | fetching hfetch => exact .refreshed hrefresh _ hfetch

private theorem filterMap_cons_toList {α β : Type} (f : α → Option β) (a : α) (l : List α) :
  (a :: l).filterMap f = (f a).toList ++ l.filterMap f
  := by
  rw [List.filterMap_cons]
  cases f a <;> rfl

/-- Whatever steps are taken, an action goes on in one of these ways until its name is taken. -/
theorem continues_account {desk : Desk} (hnav : desk.controller.nav.Standard) (name : String)
    (later : List Step) (hlater : ∀ action, .begin name action ∉ later) :
  Continues (desk.task? name) ((desk.account name later).filterMap Moment.arrival?)
    ((desk.account name later).filterMap Moment.call?)
    ((desk.account name later).filterMap Moment.outcome?)
  := by
  induction later generalizing desk with
  | nil =>
      cases desk.task? name with
      | none => exact .idle _
      | some task =>
          cases task with
          | change change => exact .changing _
          | fetch fetch => exact .fetching .waiting
  | cons step rest ih =>
      have hrest : ∀ action, .begin name action ∉ rest := by
        intro action hmem
        apply hlater action (List.mem_cons_of_mem _ hmem)
      have hcontinues := ih (standard_step hnav step) hrest
      by_cases hname : step.name = name
      · rw [account_cons_self desk hname, filterMap_cons_toList, filterMap_cons_toList,
          filterMap_cons_toList]
        subst hname
        rw [task?_step_self] at hcontinues
        cases step with
        | begin name action => exact absurd List.mem_cons_self (hlater action)
        | reply name reply => exact hcontinues.reply hnav
      · rw [account_cons_of_ne desk hname]
        rw [task?_step_of_ne desk step (Ne.symm hname)] at hcontinues
        apply hcontinues

/-! ### Runs -/

section

variable {user : String} {policy : RefreshPolicy} {begun : Session} {action : Action}
    {arrivals : List Arrival} {calls : List Call} {outcomes : List Outcome}

/-- What follows the mutation of an action completes its course. -/
theorem Continues.course_of_carries {mutation : Mutation} (h : Carries user action mutation)
    {on : RefreshOn}
    (hon : ∀ accepted : Bool, on.refreshes accepted ↔ accepted ∨ action.Insists policy)
    (hcontinues : Continues (some (.change ⟨mutation, on⟩)) arrivals calls outcomes) :
  Course user policy begun action arrivals (.mutate mutation :: calls) outcomes
  := by
  cases hcontinues with
  | changing => exact .called h
  | settled hrefresh session rest =>
      apply Course.settled h
      rw [← hon, hrefresh]
      exact Bool.false_ne_true
  | refreshed hrefresh session hfetch => exact .refreshed h ((hon _).mp hrefresh) session hfetch

/-- What follows the fetch of an action completes its course. -/
theorem Continues.course_of_fetches {outcome : RefreshOutcome → Outcome}
    (h : Fetches action outcome) {fetch : Fetch} (hendpoint : fetch.endpoint = Endpoint.ofSession begun)
    (houtcome : fetch.purpose.outcome = outcome)
    (hcontinues : Continues (some (.fetch fetch)) arrivals calls outcomes) :
  Course user policy begun action arrivals (.fetch fetch.endpoint :: calls) outcomes
  := by
  rw [hendpoint]
  cases hcontinues with
  | fetching hfetch => exact .fetched h (houtcome ▸ hfetch)

/-- A deletion without a key is over at once. -/
theorem Continues.course_of_not_infix {tag : String} (h : ¬ PostKey.mark.toList <:+: tag.toList)
    (hcontinues : Continues none arrivals calls outcomes) :
  Course user policy begun (.delete tag) arrivals calls (.acted false none :: outcomes)
  := by
  cases hcontinues with
  | idle arrivals => exact .ignored h arrivals

end

theorem account_begin (desk : Desk) (name : String) (action : Action) (rest : List Step) :
  desk.account name (.begin name action :: rest)
    = ⟨⟨.begin name action, some (desk.controller.begin action).2⟩, desk.controller.session⟩
      :: (desk.step (.begin name action)).1.account name rest
  := by
  have hname : (Step.begin name action).name = name := rfl
  rw [account_cons_self desk hname, step_begin]

theorem task?_begin (desk : Desk) (name : String) (action : Action) :
  (desk.step (.begin name action)).1.task? name = (desk.controller.begin action).2.task?
  := by
  rw [step_begin, task?_file, if_pos rfl]

/-- Whatever steps are taken after an action has begun, it goes one of its courses. -/
theorem course_account {desk : Desk} (hnav : desk.controller.nav.Standard) (name : String)
    (action : Action) (later : List Step) (hlater : ∀ action, .begin name action ∉ later) :
  let account := desk.account name (.begin name action :: later)
  Course desk.controller.user desk.controller.policy (desk.controller.begin action).1.session action
    (account.filterMap Moment.arrival?) (account.filterMap Moment.call?)
    (account.filterMap Moment.outcome?)
  := by
  intro account
  have hcontinues := continues_account (standard_step hnav (.begin name action)) name later hlater
  rw [task?_begin] at hcontinues
  simp only [account]
  rw [account_begin, filterMap_cons_toList, filterMap_cons_toList, filterMap_cons_toList]
  obtain ⟨mutation, h⟩ | ⟨outcome, h⟩ | ⟨tag, rfl, h⟩ := action.kinds desk.controller.user
  · obtain ⟨on, hbegin, hon⟩ := Controller.begin_of_carries h
    rw [hbegin] at hcontinues ⊢
    apply hcontinues.course_of_carries h hon
  · obtain ⟨fetch, hbegin, hendpoint, houtcome⟩ := Controller.begin_of_fetches hnav h
    rw [hbegin] at hcontinues ⊢
    apply hcontinues.course_of_fetches h hendpoint houtcome
  · rw [Controller.begin_of_not_infix _ h] at hcontinues ⊢
    apply hcontinues.course_of_not_infix h

/-- No step changes the policy. -/
theorem Effect.policy {desk : Desk} {step : Step} {c : Controller} {progress : Option Progress}
    (heffect : Effect desk step c progress) :
  c.policy = desk.controller.policy
  := by
  cases heffect <;> rfl

theorem Reached.policy {user : String} {view : View} {policy : RefreshPolicy} {desk : Desk}
    {h : History} (hreached : Reached user view policy desk h) :
  desk.controller.policy = policy
  := by
  induction hreached with
  | start => rfl
  | step hreached step ih =>
      rw [(effect_step hreached.accords.standard step).policy]
      apply ih

/-- Whenever a client begins an action, and whatever other actions do from then on, the action makes
the calls of its course and no others. -/
theorem course_run (user : String) (view : View) (policy : RefreshPolicy) (steps : List Step)
    (name : String) (action : Action) (later : List Step)
    (hlater : ∀ action, .begin name action ∉ later) :
  let desk := (start user view policy).run steps
  let begun := (desk.step (.begin name action)).1.controller.session
  let account := desk.account name (.begin name action :: later)
  Course desk.controller.user policy begun action (account.filterMap Moment.arrival?)
    (account.filterMap Moment.call?) (account.filterMap Moment.outcome?)
  := by
  intro desk begun account
  have hreached := reached_run user view policy steps
  have hcourse := course_account hreached.accords.standard name action later hlater
  rw [hreached.policy] at hcourse
  simp only [begun, step_begin, file_controller]
  apply hcourse

/-- Ann subscribes to Cat; before the server refuses, the user is switched to Bob, whose feed it is
then that is fetched. -/
theorem course_subscribed :
  let later : List Step := [.begin "b" (.switchUser "bob"), .reply "a" .failed,
    .reply "b" (.succeeded []), .reply "a" (.succeeded [])]
  let account := (start "ann" .home {}).account "a" (.begin "a" (.subscribeUser "cat") :: later)
  account.filterMap Moment.call?
      = [.mutate (.subscribe "ann" "cat"), .fetch (Endpoint.ofView .home "bob")]
    ∧ Course "ann" {} ⟨"Home", "ann"⟩ (.subscribeUser "cat") (account.filterMap Moment.arrival?)
      (account.filterMap Moment.call?) [.acted false (some (.applied 0))]
  := by
  intro later account
  constructor
  · decide
  · have hlater : ∀ action, .begin "a" action ∉ later := by
      simp [later]
    apply course_run "ann" .home {} [] "a" (.subscribeUser "cat") later hlater

end Desk

end FeedClient
