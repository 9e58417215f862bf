import FeedClient.Proofs.Program.Session
import Mathlib.Data.List.OfFn

/-!
# Which posts can be chosen

At any time in a session, the feed on display is the last one that has been fetched, under a
placeholder for every refresh that has failed since. So the posts that the user can choose from are
those of the last fetched feed, but for the posts of an author who is called what the placeholder
says: these are taken for placeholders.
-/

namespace FeedClient

/-- The posts of a call that has fetched some. -/
def Called.fetched? : Called → Option (List Post)
  | ⟨.fetch _, .succeeded posts⟩ => some posts
  | _ => none

/-- The posts that have been fetched last, if any have. -/
def Called.lastFetched? (calls : List Called) : Option (List Post) :=
  (calls.filterMap fetched?).getLast?

theorem Called.lastFetched?_append (calls more : List Called) :
  lastFetched? (calls ++ more) = (lastFetched? more).or (lastFetched? calls)
  := by
  rw [lastFetched?, List.filterMap_append, List.getLast?_append]
  rfl

theorem Called.lastFetched?_mutate (mutation : Mutation) (reply : Reply) (rest : List Called) :
  lastFetched? (⟨.mutate mutation, reply⟩ :: rest) = lastFetched? rest
  := rfl

theorem Called.lastFetched?_fetch (endpoint : Endpoint) (reply : Reply) :
  lastFetched? [⟨.fetch endpoint, reply⟩] = fetched? ⟨.fetch endpoint, reply⟩
  := by
  cases reply <;> rfl

/-- A feed that shows these posts, perhaps under placeholders. -/
def Feed.Shows (feed : Feed) (posts : List Post) : Prop :=
  ∃ count, feed.posts = List.replicate count Post.placeholder ++ posts

namespace Feed

variable {feed : Feed} {posts : List Post}

theorem shows_self (feed : Feed) :
  feed.Shows feed.posts
  := ⟨0, rfl⟩

theorem Shows.prepend (h : feed.Shows posts) :
  (feed.prepend Post.placeholder).Shows posts
  := by
  obtain ⟨count, h⟩ := h
  use count + 1
  rw [posts_prepend, h]
  rfl

/-- The controls of the placeholders cannot be chosen, and neither can those of posts whose author
is called what the placeholder says. -/
theorem controlIds_of_shows (hfeed : feed.Genuine) (h : feed.Shows posts) (kind : ControlKind) :
  Program.controlIds feed kind
    = (posts.filter fun post => post.author != Post.loading).map fun post =>
        (Control.of post.key kind).id
  := by
  obtain ⟨count, hposts⟩ := h
  have hviews : Program.controlIds feed kind
      = (feed.posts.filter fun post => post.author != Post.loading).map fun post =>
          (Control.of post.key kind).id := by
    rw [Feed.posts, List.filter_map, List.map_map, ← List.filterMap_eq_map]
    apply List.filterMap_congr
    intro view hmem
    have hgenuine := hfeed view (List.mem_filter.mp hmem).1
    rw [hgenuine.control?, hgenuine.key]
    rfl
  rw [hviews, hposts, List.filter_append, List.filter_replicate]
  rfl

end Feed

namespace Controller

variable {c c' : Controller} {posts : List Post}

/-- A refresh shows what it has fetched; if it fails, it leaves a placeholder. -/
theorem Refreshed.shows {reply : Reply} {refresh : RefreshOutcome}
    (h : Refreshed c reply c' refresh) (hfeed : c.feed.Shows posts) (endpoint : Endpoint) :
  c'.feed.Shows ((Called.fetched? ⟨.fetch endpoint, reply⟩).getD posts)
  := by
  cases h with
  | failed => apply hfeed.prepend
  | applied posts =>
      use 0
      apply Feed.posts_replaceAll

/-- An action shows what it has fetched; if it has fetched nothing, it may leave a placeholder. -/
theorem Performed.shows {action : Action} {calls : List Called} {outcome : Outcome}
    (h : Performed c action calls c' outcome) (hfeed : c.feed.Shows posts) :
  c'.feed.Shows ((Called.lastFetched? calls).getD posts)
  := by
  cases h with
  | ignored hmark => apply hfeed
  | settled h hrefresh => apply hfeed
  | refreshed h hrefresh hfetch =>
      rw [Called.lastFetched?_mutate, Called.lastFetched?_fetch]
      apply hfetch.shows hfeed
  | fetched h hfetch =>
      rw [Called.lastFetched?_fetch]
      apply hfetch.shows
      rw [feed_switched]
      apply hfeed

end Controller

namespace Program

/-- The calls of a turn with their replies. -/
def Turn.calls (turn : Turn) : List Called :=
  turn.deed?.elim [] Deed.calls

/-- The posts that the turns of a session have fetched last; none before the first. -/
def lastPosts (turns : List Turn) : List Post :=
  (Called.lastFetched? (turns.flatMap Turn.calls)).getD []

/-- The options of an event, if it is a choice. -/
def Event.options : Event → List String
  | ⟨.choose _ _ option, _⟩ => List.ofFn option
  | _ => []

/-- The user is let choose from these options for a control, and from nothing else. -/
def Offers (c : Client) (kind : ControlKind) (options : List String) : Prop :=
  ∀ events decision, (pick c kind).Runs events decision →
    events.flatMap Event.options = options

theorem offers_controlIds (c : Client) (kind : ControlKind) :
  Offers c kind (controlIds c.controller.feed kind)
  := by
  intro events decision h
  obtain ⟨hids, rfl, -⟩ | ⟨-, answer, rfl, -⟩ := runs_pick h
  · rw [hids]
    rfl
  · have hoptions : ∀ options answer, (Event.chosen (whichPost kind) options answer).options
        = options := by
      intro options answer
      apply List.ofFn_get
    rw [List.flatMap_singleton, hoptions]

/-- There is always a question what to choose from, so the options are told by it. -/
theorem Offers.eq {c : Client} {kind : ControlKind} {options : List String}
    (h : Offers c kind options) :
  options = controlIds c.controller.feed kind
  := by
  have hrun := Dialogue.runs_record World.scripted (pick c kind) ⟨[], []⟩
  rw [← h _ _ hrun, offers_controlIds c kind _ _ hrun]

end Program

namespace Client

open Program

variable {start c : Client} {turns : List Turn} {posts : List Post}

/-- A client shows the posts that its turns have fetched last. -/
theorem Takes.shows (h : start.Takes turns c) (hstart : start.controller.feed.Shows posts) :
  c.controller.feed.Shows ((Called.lastFetched? (turns.flatMap Turn.calls)).getD posts)
  := by
  induction h with
  | @opening c deed haction hdoes =>
      have hcalls : [(⟨start, [], some deed, c⟩ : Turn)].flatMap Turn.calls = deed.calls :=
        List.append_nil _
      rw [hcalls]
      apply hdoes.performed.shows hstart
  | @turn turns turn h hlawful ih =>
      rw [List.flatMap_append, List.flatMap_singleton, Called.lastFetched?_append, Option.getD_or]
      cases hlawful with
      | acting hdecides hdoes => apply hdoes.performed.shows ih
      | idle hskips => apply ih

theorem Takes.genuine (h : start.Takes turns c) (hstart : start.controller.feed.Genuine) :
  c.controller.feed.Genuine
  := h.keeps (P := fun c => c.controller.feed.Genuine) hstart
    fun hdoes hfeed => hdoes.performed.genuine hfeed

end Client

namespace Program

/-- In a session, the user can choose from the posts that have been fetched last, in their order,
but for those whose author is called what the placeholder says. -/
theorem controlIds_of_takes {config : Configuration} {zone : Zone} {c : Client}
    {turns : List Turn} (h : (Client.start config zone).Takes turns c) (kind : ControlKind) :
  controlIds c.controller.feed kind
    = ((lastPosts turns).filter fun post => post.author != Post.loading).map fun post =>
        (Control.of post.key kind).id
  := by
  have hstart : (Client.start config zone).controller.feed.Shows [] := Feed.shows_self _
  apply Feed.controlIds_of_shows (h.genuine Feed.genuine_empty) (h.shows hstart)

/-- Wherever a session stands, the user is offered the controls of the posts that have been fetched
last, in their order, but for those whose author is called what the placeholder says. -/
theorem shell_choices {σ : Type} (world : World σ) (hworld : world.Attended) (s : σ)
    (config : Configuration) (zone : Zone) (limit : Nat) {c : Client} :
  let ran := (ofCommand config .shell zone >>= rounds limit).record world s
  ran.2 = .session c → ∃ turns, (Client.start config zone).Takes turns c
    ∧ ran.1 = turns.flatMap Turn.events
    ∧ ∀ kind, Offers c kind
        (((lastPosts turns).filter fun post => post.author != Post.loading).map fun post =>
          (Control.of post.key kind).id)
  := by
  intro ran hstage
  obtain ⟨turns, c', farewell, htakes, hstops, hevents, -⟩ :=
    takes_of_runs_shell config zone (Dialogue.runs_record world _ s) (hworld.record _ s)
  obtain ⟨rfl, rfl⟩ := hstops.of_session hstage
  refine ⟨turns, htakes, ?_, ?_⟩
  · rw [hevents, List.append_nil]
  · intro kind
    rw [← controlIds_of_takes htakes]
    apply offers_controlIds

/-! ### An author who is called what the placeholder says -/

/-- The posts on display, if there is a session. -/
def Stage.posts : Stage → List Post
  | .session c => c.controller.feed.posts
  | .ended _ => []

theorem Stops.eq_session {c : Client} {farewell : List Event} {stage : Stage}
    (h : Stops c farewell stage) (hposts : stage.posts ≠ []) :
  stage = .session c
  := by
  cases h with
  | leaving h => contradiction
  | paused => rfl

/-- Two posts, the first by an author who is called what the placeholder says. -/
def namesakePosts : List Post :=
  [⟨Post.loading, "hi", "1f"⟩, ⟨"alice", "yo", "2"⟩]

/-- A server that sends these posts once, and a user who does nothing. -/
def namesake : Script :=
  { responses := [{
      status := 200,
      body := Charset.encode (Wire.encode (⟨some namesakePosts, none⟩ : Wire.FeedReply)).toList }],
    picks := [] }

def namesakeConfig : Configuration :=
  ⟨"http://localhost", "bob", .home, 30, {}⟩

/-- A session with this server. -/
def namesakeRun : List Event × Stage :=
  (ofCommand namesakeConfig .shell .utc >>= rounds 0).record World.scripted namesake

theorem posts_namesakeRun :
  namesakeRun.2.posts = namesakePosts
  := by
  decide +kernel

theorem exists_namesakeRun :
  ∃ c turns, namesakeRun.2 = .session c ∧ (Client.start namesakeConfig .utc).Takes turns c
  := by
  obtain ⟨turns, c, farewell, htakes, hstops, -, -⟩ :=
    takes_of_runs_shell namesakeConfig .utc (Dialogue.runs_record World.scripted _ namesake)
      (World.attended_scripted.record _ namesake)
  refine ⟨c, turns, hstops.eq_session ?_, htakes⟩
  exact posts_namesakeRun ▸ List.cons_ne_nil _ _

theorem lastPosts_namesakeRun {c : Client} {turns : List Turn} (hstage : namesakeRun.2 = .session c)
    (htakes : (Client.start namesakeConfig .utc).Takes turns c) :
  lastPosts turns = namesakePosts
  := by
  have hstart : (Client.start namesakeConfig .utc).controller.feed.Shows [] := Feed.shows_self _
  have hposts : c.controller.feed.posts = namesakePosts := by
    rw [← posts_namesakeRun, hstage]
    rfl
  obtain ⟨count, hshows⟩ := htakes.shows hstart
  rw [hposts] at hshows
  cases count with
  | zero => exact hshows.symm
  | succ count =>
      obtain ⟨hfirst, -⟩ := List.cons.inj hshows
      have hother : (⟨Post.loading, "hi", "1f"⟩ : Post) ≠ Post.placeholder := by decide
      exact absurd hfirst hother

/-- The post by the author who is called what the placeholder says is not offered. -/
theorem shell_choices_namesake :
  ∃ c, namesakeRun.2 = .session c ∧ ∃ turns, (Client.start namesakeConfig .utc).Takes turns c
    ∧ namesakeRun.1 = turns.flatMap Turn.events ∧ lastPosts turns = namesakePosts
    ∧ ∀ kind, Offers c kind [(Control.of (PostKey.of "alice" "2") kind).id]
  := by
  obtain ⟨c, -, hstage, -⟩ := exists_namesakeRun
  obtain ⟨turns, htakes, hevents, hoffers⟩ :=
    shell_choices World.scripted World.attended_scripted namesake namesakeConfig .utc 0 hstage
  have hlast := lastPosts_namesakeRun hstage htakes
  rw [hlast] at hoffers
  exact ⟨c, hstage, turns, htakes, hevents, hlast, hoffers⟩

/-- It is not so that the user is offered every post that has been fetched last. -/
theorem not_offers_every_post :
  ¬ ∀ (config : Configuration) (zone : Zone) (script : Script) (limit : Nat) (c : Client)
      (turns : List Turn),
    ((ofCommand config .shell zone >>= rounds limit).record World.scripted script).2 = .session c →
    (Client.start config zone).Takes turns c →
      ∀ kind, Offers c kind ((lastPosts turns).map fun post => (Control.of post.key kind).id)
  := by
  intro h
  obtain ⟨c, turns, hstage, htakes⟩ := exists_namesakeRun
  have hevery := (h namesakeConfig .utc namesake 0 c turns hstage htakes .delete).eq
  rw [controlIds_of_takes htakes, lastPosts_namesakeRun hstage htakes] at hevery
  revert hevery
  decide

end Program

end FeedClient
