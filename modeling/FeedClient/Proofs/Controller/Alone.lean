import FeedClient.Proofs.Controller.Protocol
import FeedClient.Proofs.Feed
import FeedClient.Proofs.Gateway.Calls

/-!
# Actions one at a time

When nothing else is under way, an action runs from its beginning to its end at once. Then the
refresh that ends it is the last that has started, so it is never stale: it fails and leaves the
placeholder, or it shows the posts of the reply. `Controller.Performed` lists the ways in which an
action can go, and `Controller.performed_of_runs` says that there are no others.
-/

namespace FeedClient

namespace Controller

/-! ### Running an action -/

section

variable {m : Type → Type} [Monad m] (ask : Call → m Reply)

private theorem finishRefresh_eq (refreshing : Controller × Refreshing) :
  finishRefresh ask refreshing = (finishRefresh Calls.make refreshing).run ask
  := by
  obtain ⟨c, fetch | outcome⟩ := refreshing
  · rfl
  · rfl

/-- Whoever answers the calls of an action, it makes the calls of one computation. -/
theorem run_eq (c : Controller) (action : Action) :
  c.run ask action = (c.run Calls.make action).run ask
  := by
  simp only [run]
  rcases c.begin action with ⟨c', (change | fetch) | outcome⟩
  · apply bind_congr
    intro reply
    apply finishRefresh_eq
  · apply finishRefresh_eq
  · rfl

end

/-! ### How an action goes -/

/-- The controller after the switch that an action begins with, if it does. -/
def switched (c : Controller) : Action → Controller
  | .switchView label => { c with nav := c.nav.activate label }
  | .switchUser user => { c with user }
  | _ => c

/-- The controller once it shows posts in place of its feed. -/
def showing (c : Controller) (posts : List Post) : Controller :=
  { c with feed := c.feed.replaceAll posts }

/-- How a refresh ends with the reply to its fetch, and the controller that it leaves. -/
inductive Refreshed (c : Controller) : Reply → Controller → RefreshOutcome → Prop
  | failed : Refreshed c .failed c.loading .failed
  | applied (posts : List Post) :
    Refreshed c (.succeeded posts) (c.loading.showing posts) (.applied posts.length)

/-- How an action goes: the calls that it makes with their replies, the controller that it leaves
and its outcome. -/
inductive Performed (c : Controller) : Action → List Called → Controller → Outcome → Prop
  /-- A deletion without a key. -/
  | ignored {tag : String} (hmark : ¬ PostKey.mark.toList <:+: tag.toList) :
    Performed c (.delete tag) [] c (.acted false none)
  /-- The mutation is not followed by a refresh. -/
  | settled {action : Action} {mutation : Mutation} (h : Carries c.user action mutation)
      {reply : Reply} (hrefresh : ¬ (reply.accepted ∨ action.Insists c.policy)) :
    Performed c action [⟨.mutate mutation, reply⟩] c (.acted reply.accepted none)
  /-- The mutation is followed by a refresh. -/
  | refreshed {action : Action} {mutation : Mutation} (h : Carries c.user action mutation)
      {reply : Reply} (hrefresh : reply.accepted ∨ action.Insists c.policy) {fetched : Reply}
      {c' : Controller} {refresh : RefreshOutcome} (hfetch : Refreshed c fetched c' refresh) :
    Performed c action [⟨.mutate mutation, reply⟩, ⟨.fetch (Endpoint.ofSession c.session), fetched⟩]
      c' (.acted reply.accepted (some refresh))
  /-- The action is nothing but a refresh, perhaps after a switch. -/
  | fetched {action : Action} {outcome : RefreshOutcome → Outcome} (h : Fetches action outcome)
      {fetched : Reply} {c' : Controller} {refresh : RefreshOutcome}
      (hfetch : Refreshed (c.switched action) fetched c' refresh) :
    Performed c action [⟨.fetch (Endpoint.ofSession (c.switched action).session), fetched⟩] c'
      (outcome refresh)

section

variable {c : Controller}

/-- A refresh that ends before another has started is not stale. -/
theorem refreshed_receive (c : Controller) (endpoint : Endpoint) (purpose : Purpose)
    (reply : Reply) :
  ∃ refresh, Refreshed c reply (c.loading.receive ⟨endpoint, c.generation + 1, purpose⟩ reply).1
      refresh
    ∧ (c.loading.receive ⟨endpoint, c.generation + 1, purpose⟩ reply).2 = purpose.outcome refresh
  := by
  cases reply with
  | failed => exact ⟨_, Refreshed.failed, rfl⟩
  | succeeded posts =>
      have hlast : c.loading.generation = c.generation + 1 := rfl
      simp only [receive, if_pos hlast]
      exact ⟨_, Refreshed.applied posts, rfl⟩

/-- A refresh under a standard bar makes one call, and ends with its reply. -/
theorem refreshed_of_runs (hnav : c.nav.Standard) {purpose : Purpose} {calls : List Called}
    {c' : Controller} {outcome : Outcome}
    (h : (finishRefresh Calls.make (c.refresh purpose)).Runs calls (c', outcome)) :
  ∃ fetched refresh, calls = [⟨.fetch (Endpoint.ofSession c.session), fetched⟩]
    ∧ Refreshed c fetched c' refresh ∧ outcome = purpose.outcome refresh
  := by
  rw [refresh_of_standard hnav, finishRefresh, Dialogue.runs_bind] at h
  obtain ⟨first, fetched, rest, hfirst, hrest, rfl⟩ := h
  obtain rfl := Dialogue.runs_question.mp hfirst
  obtain ⟨rfl, heq⟩ := Dialogue.runs_pure.mp hrest
  obtain ⟨refresh, hrefreshed, houtcome⟩ :=
    c.refreshed_receive (Endpoint.ofSession c.session) purpose fetched
  obtain ⟨rfl, rfl⟩ := Prod.mk.inj heq
  exact ⟨fetched, refresh, rfl, hrefreshed, houtcome⟩

/-- An action that fetches at once is a refresh of the controller after its switch. -/
theorem run_of_fetches (c : Controller) {action : Action} {outcome : RefreshOutcome → Outcome}
    (h : Fetches action outcome) :
  ∃ purpose, c.run Calls.make action
      = finishRefresh Calls.make ((c.switched action).refresh purpose)
    ∧ purpose.outcome = outcome
  := by
  cases h with
  | switchView label =>
      use .action true
      simp only [run, begin, switched]
      rcases refresh _ _ with ⟨c', fetch | outcome⟩ <;> exact ⟨rfl, rfl⟩
  | switchUser user =>
      use .action true
      simp only [run, begin, switched]
      rcases refresh _ _ with ⟨c', fetch | outcome⟩ <;> exact ⟨rfl, rfl⟩
  | refresh =>
      use .refresh
      simp only [run, begin, switched]
      rcases refresh _ _ with ⟨c', fetch | outcome⟩ <;> exact ⟨rfl, rfl⟩

theorem standard_switched (hnav : c.nav.Standard) (action : Action) :
  (c.switched action).nav.Standard
  := by
  cases action with
  | switchView label => apply hnav.activate
  | _ => apply hnav

/-- An action that carries a mutation asks for it first, and ends with a refresh or without. -/
theorem performed_of_carries (hnav : c.nav.Standard) {action : Action} {mutation : Mutation}
    (h : Carries c.user action mutation) {calls : List Called} {c' : Controller}
    {outcome : Outcome} (hruns : (c.run Calls.make action).Runs calls (c', outcome)) :
  Performed c action calls c' outcome
  := by
  obtain ⟨on, hbegin, hon⟩ := begin_of_carries h
  simp only [run, hbegin] at hruns
  obtain ⟨first, reply, rest, hfirst, hrest, rfl⟩ := Dialogue.runs_bind.mp hruns
  obtain rfl := Dialogue.runs_question.mp hfirst
  rw [settle] at hrest
  cases hrefresh : on.refreshes reply.accepted with
  | false =>
      have hsettled : ¬ (reply.accepted ∨ action.Insists c.policy) := by
        rw [← hon, hrefresh]
        exact Bool.false_ne_true
      rw [hrefresh, if_neg Bool.false_ne_true] at hrest
      obtain ⟨rfl, heq⟩ := Dialogue.runs_pure.mp hrest
      obtain ⟨rfl, rfl⟩ := Prod.mk.inj heq
      exact Performed.settled h hsettled
  | true =>
      rw [hrefresh, if_pos rfl] at hrest
      obtain ⟨fetched, refresh, rfl, hfetch, rfl⟩ := refreshed_of_runs hnav hrest
      exact Performed.refreshed h ((hon _).mp hrefresh) hfetch

/-- An action that is carried out by itself goes in one of these ways. -/
theorem performed_of_runs (hnav : c.nav.Standard) {action : Action} {calls : List Called}
    {c' : Controller} {outcome : Outcome}
    (hruns : (c.run Calls.make action).Runs calls (c', outcome)) :
  Performed c action calls c' outcome
  := by
  obtain ⟨mutation, h⟩ | ⟨outcome, h⟩ | ⟨tag, rfl, hmark⟩ := action.kinds c.user
  · apply performed_of_carries hnav h hruns
  · obtain ⟨purpose, hrun, rfl⟩ := c.run_of_fetches h
    rw [hrun] at hruns
    obtain ⟨fetched, refresh, rfl, hfetch, rfl⟩ :=
      refreshed_of_runs (standard_switched hnav action) hruns
    exact Performed.fetched h hfetch
  · simp only [run, c.begin_of_not_infix hmark] at hruns
    obtain ⟨rfl, heq⟩ := Dialogue.runs_pure.mp hruns
    obtain ⟨rfl, rfl⟩ := Prod.mk.inj heq
    exact Performed.ignored hmark

end

/-! ### What an action keeps -/

section

variable {c c' : Controller} {action : Action} {calls : List Called} {outcome : Outcome}

theorem Refreshed.nav {reply : Reply} {refresh : RefreshOutcome}
    (h : Refreshed c reply c' refresh) :
  c'.nav = c.nav
  := by
  cases h <;> rfl

theorem Performed.standard (h : Performed c action calls c' outcome) (hnav : c.nav.Standard) :
  c'.nav.Standard
  := by
  cases h with
  | ignored hmark => apply hnav
  | settled h hrefresh => apply hnav
  | refreshed h hrefresh hfetch =>
      rw [hfetch.nav]
      apply hnav
  | fetched h hfetch =>
      rw [hfetch.nav]
      apply standard_switched hnav

theorem Refreshed.genuine {reply : Reply} {refresh : RefreshOutcome}
    (h : Refreshed c reply c' refresh) (hfeed : c.feed.Genuine) :
  c'.feed.Genuine
  := by
  cases h with
  | failed => apply hfeed.prepend
  | applied posts => apply Feed.genuine_replaceAll

/-- A refresh that fails leaves the placeholder in front of the feed. -/
theorem Refreshed.posts {reply : Reply} {refresh : RefreshOutcome}
    (h : Refreshed c reply c' refresh) :
  c'.feed.posts = match reply with
    | .failed => Post.placeholder :: c.feed.posts
    | .succeeded posts => posts
  := by
  cases h with
  | failed => rfl
  | applied posts => apply Feed.posts_replaceAll

theorem feed_switched (c : Controller) (action : Action) :
  (c.switched action).feed = c.feed
  := by
  cases action <;> rfl

theorem Performed.genuine (h : Performed c action calls c' outcome) (hfeed : c.feed.Genuine) :
  c'.feed.Genuine
  := by
  cases h with
  | ignored hmark => apply hfeed
  | settled h hrefresh => apply hfeed
  | refreshed h hrefresh hfetch => apply hfetch.genuine hfeed
  | fetched h hfetch =>
      apply hfetch.genuine
      rw [feed_switched]
      apply hfeed

theorem Refreshed.not_stale {reply : Reply} {refresh : RefreshOutcome}
    (h : Refreshed c reply c' refresh) :
  refresh ≠ .stale
  := by
  cases h <;> simp

/-- An action that is carried out by itself is never stale. -/
theorem Performed.not_stale (h : Performed c action calls c' outcome) :
  outcome.refresh? ≠ some .stale
  := by
  cases h with
  | ignored hmark => simp
  | settled h hrefresh => simp
  | refreshed h hrefresh hfetch => simpa using hfetch.not_stale
  | fetched h hfetch =>
      cases h <;> simpa [Outcome.refresh?] using hfetch.not_stale

end

end Controller

end FeedClient
