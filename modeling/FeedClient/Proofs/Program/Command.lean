import FeedClient.Program
import FeedClient.Proofs.Feed.Screen
import FeedClient.Proofs.Program.Client

/-!
# What a command comes to

A command is carried out by one action. `Command.Course` says how it goes, by the calls that are
made for it and their replies: which calls these are, and all that is printed.
-/

namespace FeedClient

open Http (Sent)
open Program (Event World Stage Exit)
open Text (Style)

/-! ### The course of a command -/

/-- The mutation that a command asks for in the name of a user, and what the command is called. A
name is sent as it was given; a tag leads to the key of a post if the mark of post keys stands in
it. -/
inductive Command.Asks (user : String) : Command → String → Mutation → Prop
  | post (contents : String) : Asks user (.post contents) "post" (.createPost user contents)
  | delete {tag : String} {key : PostKey} (hmark : PostKey.mark.toList <:+: tag.toList)
      (hkey : key.text = Tag.stem tag) :
    Asks user (.delete tag) "delete" (.deletePost user key)
  | subscribe (target : String) :
    Asks user (.subscribe target) "subscribe" (.subscribe user target)
  | unsubscribe (target : String) :
    Asks user (.unsubscribe target) "unsubscribe" (.unsubscribe user target)
  | register : Asks user .register "register" (.createUser user)

/-- The policy wants the feed even if the mutation of a command is rejected. -/
def Command.Insists (policy : RefreshPolicy) : Command → Prop
  | .subscribe _ => policy.subscribe = .always
  | .unsubscribe _ => policy.unsubscribe = .always
  | _ => False

/-- What is said about a mutation. -/
def verdict (name : String) (accepted : Bool) : String :=
  if accepted then Style.brightGreen.apply "✓" ++ " " ++ name ++ "\n"
  else Style.brightRed.apply "✗" ++ " " ++ name ++ " was not accepted\n"

/-- What is said about a fetch: nothing, unless it fails. -/
def warning : Reply → String
  | .failed => Style.yellow.apply "⚠" ++ " feed could not be loaded\n"
  | .succeeded _ => ""

/-- The posts on display after a fetch. -/
def Reply.shown : Reply → List Post
  | failed => [Post.placeholder]
  | succeeded posts => posts

namespace Configuration

/-- The call for the feed of the configured view and user. -/
def fetch (config : Configuration) : Call :=
  .fetch (Endpoint.ofView config.view config.user)

/-- The printed feed of the configured view, when it shows the given posts in a time zone. -/
def page (config : Configuration) (zone : Zone) (posts : List Post) : String :=
  "\n" ++ Feed.screen (NavBar.ofView config.view) (Feed.empty.replaceAll posts) zone ++ "\n\n"

end Configuration

/-- How a command goes under a configuration in a time zone: the calls with their replies, and all
that is printed. -/
inductive Command.Course (config : Configuration) (zone : Zone) :
    Command → List Called → String → Prop
  | feed (fetched : Reply) :
    Course config zone .feed [⟨config.fetch, fetched⟩] (warning fetched ++ config.page zone fetched.shown)
  /-- A deletion without a key. -/
  | ignored {tag : String} (hmark : ¬ PostKey.mark.toList <:+: tag.toList) :
    Course config zone (.delete tag) [] (verdict "delete" false ++ config.page zone [])
  /-- The feed is not fetched after the mutation. -/
  | settled {command : Command} {name : String} {mutation : Mutation}
      (h : Asks config.user command name mutation) {reply : Reply}
      (hrefresh : ¬ (reply.accepted ∨ command.Insists config.policy)) :
    Course config zone command [⟨.mutate mutation, reply⟩]
      (verdict name reply.accepted ++ config.page zone [])
  /-- The feed is fetched after the mutation. -/
  | refreshed {command : Command} {name : String} {mutation : Mutation}
      (h : Asks config.user command name mutation) {reply : Reply}
      (hrefresh : reply.accepted ∨ command.Insists config.policy) (fetched : Reply) :
    Course config zone command [⟨.mutate mutation, reply⟩, ⟨config.fetch, fetched⟩]
      (verdict name reply.accepted ++ warning fetched ++ config.page zone fetched.shown)

/-! ### Commands and actions -/

namespace Program

section

variable {command : Command} {name : String} {action : Action}
    (h : commandAction? command = some (name, action))
include h

theorem asks_of_carries {user : String} {mutation : Mutation}
    (hcarries : Carries user action mutation) :
  command.Asks user name mutation
  := by
  cases command with
  | feed =>
      cases h
      cases hcarries
  | shell => cases h
  | post contents =>
      cases h
      cases hcarries
      apply Command.Asks.post
  | delete tag =>
      cases h
      cases hcarries with
      | delete hmark hkey => apply Command.Asks.delete hmark hkey
  | subscribe target =>
      cases h
      cases hcarries
      apply Command.Asks.subscribe
  | unsubscribe target =>
      cases h
      cases hcarries
      apply Command.Asks.unsubscribe
  | register =>
      cases h
      cases hcarries
      apply Command.Asks.register

theorem insists_iff (policy : RefreshPolicy) :
  action.Insists policy ↔ command.Insists policy
  := by
  cases command <;> cases h <;> rfl

/-- The only command that fetches at once is the one for the feed. -/
theorem eq_feed_of_fetches {outcome : RefreshOutcome → Outcome}
    (hfetches : Fetches action outcome) :
  command = .feed ∧ action = .refresh ∧ outcome = .refreshed
  := by
  cases command <;> cases h <;> cases hfetches
  exact ⟨rfl, rfl, rfl⟩

/-- The only command without a mutation but the one for the feed is a deletion. -/
theorem eq_delete_of_action {tag : String} (haction : action = .delete tag) :
  command = .delete tag ∧ name = "delete"
  := by
  subst haction
  cases command <;> cases h
  exact ⟨rfl, rfl⟩

end

/-! ### What is printed -/

/-- The text of some lines. -/
def textOf (lines : List String) : String :=
  String.join (lines.map (· ++ "\n"))

theorem textOf_outcomeLines_acted (name : String) (accepted : Bool)
    (refresh : Option RefreshOutcome) :
  textOf (outcomeLines name (.acted accepted refresh))
    = verdict name accepted ++ textOf (refresh.bind refreshLine?).toList
  := by
  have hrest : " was not accepted" ++ "\n" = " was not accepted\n" := rfl
  rw [outcomeLines, textOf, List.map_cons, String.join_cons, ← textOf]
  cases accepted with
  | false => simp only [verdict, Bool.false_eq_true, if_false, String.append_assoc, ← hrest]
  | true => rfl

/-- Without a refresh, nothing but the verdict is said. -/
theorem textOf_outcomeLines_settled (name : String) (accepted : Bool) :
  textOf (outcomeLines name (.acted accepted none)) = verdict name accepted
  := by
  rw [textOf_outcomeLines_acted]
  apply String.append_empty

/-- A refresh that nothing else has superseded is warned of when its fetch fails. -/
theorem textOf_refreshLine? {c c' : Controller} {reply : Reply} {refresh : RefreshOutcome}
    (h : c.Refreshed reply c' refresh) :
  textOf (refreshLine? refresh).toList = warning reply
  := by
  cases h with
  | failed => rfl
  | applied posts => rfl

/-- The page of a client that shows some posts of the configured view. -/
theorem screen_eq_page {config : Configuration} {c : Client} {posts : List Post}
    (hnav : c.controller.nav = NavBar.ofView config.view) (hfeed : c.controller.feed.Genuine)
    (hposts : c.controller.feed.posts = posts) :
  c.screen = config.page c.zone posts
  := by
  have hempty : (Feed.empty.replaceAll posts).Genuine := Feed.genuine_replaceAll _ _
  have hsame : c.controller.feed.posts = (Feed.empty.replaceAll posts).posts := by
    rw [hposts, Feed.posts_replaceAll]
  rw [Client.screen, Configuration.page, hnav, hfeed.screen_congr hempty hsame]

/-! ### Carrying out a command -/

/-- A command sends what its action sends, and then prints what came of it and the feed. -/
theorem runs_oneShot {c : Client} (hnav : c.controller.nav.Standard) {name : String}
    {action : Action} {events : List Event} {stage : Stage}
    (h : (oneShot c name action).Runs events stage) :
  stage = .ended .success ∧ ∃ calls sent outcome c', c.Does ⟨action, calls, sent, outcome⟩ c'
    ∧ events = sent.map .sent
      ++ ((outcomeLines name outcome).map (· ++ "\n") ++ [c'.screen]).map .printed
  := by
  obtain ⟨acted, ⟨c', outcome⟩, later, hacted, hlater, rfl⟩ := Dialogue.runs_bind.mp h
  obtain ⟨reported, a, last, hreported, hlast, rfl⟩ := Dialogue.runs_bind.mp hlater
  obtain ⟨shown, b, none, hshown, hnone, rfl⟩ := Dialogue.runs_bind.mp hlast
  obtain ⟨rfl, rfl⟩ := Dialogue.runs_pure.mp hnone
  obtain ⟨calls, sent, hdoes, rfl⟩ := Client.does_of_runs_act hnav hacted
  obtain rfl := runs_forM_printLine hreported
  obtain rfl := runs_print.mp hshown
  refine ⟨rfl, calls, sent, outcome, c', hdoes, ?_⟩
  simp

/-- Once the first refresh of a client has ended, its page shows what has come back. -/
theorem screen_of_refreshed {config : Configuration} {zone : Zone} {c' : Client} {fetched : Reply}
    {refresh : RefreshOutcome}
    (h : (Client.start config zone).controller.Refreshed fetched c'.controller refresh) :
  c'.screen = config.page c'.zone fetched.shown
  := by
  apply screen_eq_page h.nav (h.genuine Feed.genuine_empty)
  rw [h.posts]
  cases fetched <;> rfl

theorem ofSession_start (config : Configuration) (zone : Zone) :
  Endpoint.ofSession (Client.start config zone).controller.session
    = Endpoint.ofView config.view config.user
  := by
  have hlabel : (Client.start config zone).controller.session = ⟨config.view.label, config.user⟩ := by
    rw [← NavBar.activeLabel_ofView]
    rfl
  rw [hlabel, Endpoint.ofSession, Endpoint.ofLabel_label]

/-- The calls for a command and what is printed for it are those of its course. -/
theorem course_of_performed (config : Configuration) (zone : Zone) {command : Command} {name : String}
    {action : Action} (h : commandAction? command = some (name, action)) {calls : List Called}
    {c' : Client} {outcome : Outcome}
    (hperformed : (Client.start config zone).controller.Performed action calls c'.controller outcome) :
  command.Course config c'.zone calls (textOf (outcomeLines name outcome) ++ c'.screen)
  := by
  have hunfetched : c'.controller = (Client.start config zone).controller →
      c'.screen = config.page c'.zone [] := by
    intro hstart
    rw [Client.screen, hstart]
    rfl
  obtain ⟨gateway, jar, controller, zone'⟩ := c'
  cases hperformed with
  | ignored hmark =>
      obtain ⟨rfl, rfl⟩ := eq_delete_of_action h rfl
      rw [textOf_outcomeLines_settled, hunfetched rfl]
      apply Command.Course.ignored hmark
  | settled hcarries hrefresh =>
      rw [insists_iff h] at hrefresh
      rw [textOf_outcomeLines_settled, hunfetched rfl]
      apply Command.Course.settled (asks_of_carries h hcarries) hrefresh
  | @refreshed _ mutation hcarries reply hrefresh fetched _ refresh hfetched =>
      rw [insists_iff h] at hrefresh
      rw [textOf_outcomeLines_acted, screen_of_refreshed hfetched, ofSession_start,
        Option.bind_some, textOf_refreshLine? hfetched]
      apply Command.Course.refreshed (asks_of_carries h hcarries) hrefresh
  | fetched hfetches hfetched =>
      obtain ⟨rfl, rfl, rfl⟩ := eq_feed_of_fetches h hfetches
      rw [outcomeLines, textOf_refreshLine? hfetched, screen_of_refreshed hfetched]
      have hswitched : (Client.start config zone).controller.switched .refresh
          = (Client.start config zone).controller := rfl
      rw [hswitched, ofSession_start]
      apply Command.Course.feed

/-- The only command without an action starts a session. -/
theorem exists_commandAction? {command : Command} (hcommand : command ≠ .shell) :
  ∃ name action, commandAction? command = some (name, action)
  := by
  cases command with
  | shell => contradiction
  | _ => exact ⟨_, _, rfl⟩

/-- Every run of a command follows its course: first it sends, then it prints. -/
theorem course_of_runs (config : Configuration) (zone : Zone) {command : Command}
    (hcommand : command ≠ .shell) {events : List Event} {stage : Stage}
    (h : (ofCommand config command zone).Runs events stage) :
  stage = .ended .success ∧ ∃ calls sent printed jar,
    events = sent.map .sent ++ printed.map .printed
      ∧ (Gateway.ofAddress config.server).Conducts [] calls sent jar
      ∧ command.Course config zone calls (String.join printed)
  := by
  obtain ⟨name, action, haction⟩ := exists_commandAction? hcommand
  simp only [ofCommand, haction] at h
  obtain ⟨rfl, calls, sent, outcome, c', hdoes, rfl⟩ := runs_oneShot (NavBar.standard_ofView _) h
  refine ⟨rfl, calls, sent, _, c'.jar, rfl, hdoes.conducted, ?_⟩
  have hcourse := course_of_performed config zone haction hdoes.performed
  rw [hdoes.zone] at hcourse
  have hjoin : String.join [c'.screen] = c'.screen := by
    rw [String.join_cons, String.join_nil, String.append_empty]
  rw [String.join_append, hjoin]
  apply hcourse

/-- Whatever server a command is carried out with, it sends what its calls send, then it prints what
its course says, and it succeeds. -/
theorem command_course {σ : Type} (world : World σ) (s : σ) (config : Configuration) (zone : Zone)
    {command : Command} (hcommand : command ≠ .shell) :
  let ran := (ofCommand config command zone).record world s
  ran.2 = .ended .success ∧ ∃ calls sent printed jar,
    ran.1 = sent.map Event.sent ++ printed.map Event.printed
      ∧ (Gateway.ofAddress config.server).Conducts [] calls sent jar
      ∧ command.Course config zone calls (String.join printed)
  := course_of_runs config zone hcommand (Dialogue.runs_record world _ s)

/-- The server fails at first, and is silent then. The name of the user to subscribe to looks like a
control id. -/
theorem command_course_subscribed :
  let config : Configuration := ⟨"http://localhost", "ann", .discover, 30, ⟨.always, .success⟩⟩
  let command : Command := .subscribe "a.b:post_1f.a"
  let zone : Zone := .utc
  let ran := (ofCommand config command zone).record World.scripted ⟨[{ status := 500 }], []⟩
  command ≠ .shell
    ∧ (ran.1.filterMap Event.sent?).map (fun sent => (sent.1.method, sent.1.url.target))
      = [(.post, "/subscriptions?UserID=ann&TargetUserID=a.b%3Apost_1f.a"),
        (.get, "/home?UserID=ann")]
    ∧ ran.2 = .ended .success ∧ ∃ calls sent printed jar,
      ran.1 = sent.map Event.sent ++ printed.map Event.printed
        ∧ (Gateway.ofAddress config.server).Conducts [] calls sent jar
        ∧ command.Course config zone calls (String.join printed)
  := by
  refine ⟨Command.noConfusion, ?_, command_course World.scripted _ _ _ Command.noConfusion⟩
  decide +kernel

end Program

end FeedClient
