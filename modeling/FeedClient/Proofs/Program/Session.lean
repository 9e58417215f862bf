import FeedClient.Program
import FeedClient.Proofs.Program.Client

/-!
# What happens in a session

A session goes in turns. The first turn brings the feed up to date without being asked. In every
other turn the user chooses an entry of the menu, and may be asked for more; then an action is
carried out and the feed is shown once, or nothing is done at all. The session is over when the user
leaves it, and until then the client is the one that its turns have made of it.
-/

namespace FeedClient.Program

open Http (Sent)
open Text (Style)

/-! ### Choosing an entry -/

/-- What the user picks from the menu. -/
abbrev Pick : Type :=
  Fin (Entry.all.map Entry.label).length

def Pick.entry (pick : Pick) : Entry :=
  Entry.all.get (pick.cast (List.length_map _))

/-- The menu with the answer of the user. -/
def Event.menu (c : Client) (answer : Prompted Pick) : Event :=
  .chosen (greeting c) (Entry.all.map Entry.label) answer

/-- The question which post an action is for. -/
def whichPost (kind : ControlKind) : String :=
  "Which post to " ++ kind.label ++ "?"

/-- What is said when there is no post to choose. -/
def noPosts (kind : ControlKind) : String :=
  Style.blue.apply "ℹ" ++ " No posts to " ++ kind.label ++ "." ++ "\n"

/-- After an entry has been chosen, the user says this and so decides on an action. -/
inductive Decides (c : Client) : Entry → List Event → Action → Prop
  | post (contents : String) :
    Decides c .post [.written "Contents:" "" (.given contents)] (.post contents)
  | delete (i : Fin (controlIds c.controller.feed .delete).length) :
    Decides c (.control .delete)
      [.chosen (whichPost .delete) (controlIds c.controller.feed .delete) (.given i)]
      (.delete ((controlIds c.controller.feed .delete).get i))
  | subscribe (i : Fin (controlIds c.controller.feed .subscribe).length) :
    Decides c (.control .subscribe)
      [.chosen (whichPost .subscribe) (controlIds c.controller.feed .subscribe) (.given i)]
      (.subscribe ((controlIds c.controller.feed .subscribe).get i))
  | unsubscribe (i : Fin (controlIds c.controller.feed .unsubscribe).length) :
    Decides c (.control .unsubscribe)
      [.chosen (whichPost .unsubscribe) (controlIds c.controller.feed .unsubscribe) (.given i)]
      (.unsubscribe ((controlIds c.controller.feed .unsubscribe).get i))
  | view (view : View) : Decides c (.view view) [] (.switchView view.label)
  | switchUser (user : String) :
    Decides c .switchUser [.written "User ID:" c.controller.user (.given user)] (.switchUser user)
  | refresh : Decides c .refresh [] .refresh

/-- After an entry has been chosen, this happens and nothing is decided on. -/
inductive Skips (c : Client) : Entry → List Event → Prop
  | post : Skips c .post [.written "Contents:" "" .cancelled]
  | control {kind : ControlKind} (h : controlIds c.controller.feed kind ≠ []) :
    Skips c (.control kind)
      [.chosen (whichPost kind) (controlIds c.controller.feed kind) .cancelled]
  /-- There is no post to choose. -/
  | noPosts {kind : ControlKind} (h : controlIds c.controller.feed kind = []) :
    Skips c (.control kind) [.printed (noPosts kind)]
  | switchUser : Skips c .switchUser [.written "User ID:" c.controller.user .cancelled]

/-- The user leaves the session. -/
inductive Leaves : Prompted Pick → Prop
  | cancelled : Leaves .cancelled
  | quit {pick : Pick} (h : pick.entry = .quit) : Leaves (.given pick)

section

variable {c : Client} {events : List Event} {decision : Decision}

theorem runs_ask {message initial : String} {action : String → Action}
    (h : (ask message initial action).Runs events decision) :
  ∃ answer, events = [.written message initial answer]
    ∧ decision = .ofPrompted "Failed to read input" action answer
  := by
  obtain ⟨first, answer, rest, hfirst, hrest, rfl⟩ := Dialogue.runs_bind.mp h
  obtain rfl := runs_write.mp hfirst
  obtain ⟨rfl, rfl⟩ := Dialogue.runs_pure.mp hrest
  exact ⟨answer, rfl, rfl⟩

/-- The posts to choose from are those with a control of the kind; without any there is no
question. -/
theorem runs_pick {kind : ControlKind} (h : (pick c kind).Runs events decision) :
  let ids := controlIds c.controller.feed kind
  (ids = [] ∧ events = [.printed (noPosts kind)] ∧ decision = .skip)
    ∨ (ids ≠ [] ∧ ∃ answer, events = [.chosen (whichPost kind) ids answer]
      ∧ decision = .ofPrompted "Failed to get post selection"
        (fun i => controlAction kind (ids.get i)) answer)
  := by
  intro ids
  rw [pick] at h
  by_cases hids : ids = []
  · left
    rw [if_pos (List.isEmpty_iff.mpr hids)] at h
    obtain ⟨first, a, rest, hfirst, hrest, rfl⟩ := Dialogue.runs_bind.mp h
    obtain rfl := runs_print.mp hfirst
    obtain ⟨rfl, rfl⟩ := Dialogue.runs_pure.mp hrest
    exact ⟨hids, rfl, rfl⟩
  · right
    rw [if_neg (fun hempty => hids (List.isEmpty_iff.mp hempty))] at h
    obtain ⟨first, answer, rest, hfirst, hrest, rfl⟩ := Dialogue.runs_bind.mp h
    obtain rfl := runs_choose.mp hfirst
    obtain ⟨rfl, rfl⟩ := Dialogue.runs_pure.mp hrest
    exact ⟨hids, answer, rfl, rfl⟩

/-- An entry that asks for a text decides on an action, unless the user cancels. -/
theorem decided_of_runs_ask {message initial : String} {action : String → Action}
    (h : (ask message initial action).Runs events decision)
    (hattended : ∀ event ∈ events, event.Attended) :
  (∃ text, events = [.written message initial (.given text)] ∧ decision = .act (action text))
    ∨ (events = [.written message initial .cancelled] ∧ decision = .skip)
  := by
  obtain ⟨answer, rfl, rfl⟩ := runs_ask h
  cases answer with
  | given text => exact .inl ⟨text, rfl, rfl⟩
  | cancelled => exact .inr ⟨rfl, rfl⟩
  | unavailable =>
      have hanswer := hattended _ List.mem_cons_self
      contradiction

/-- Whoever chooses a post for a control decides on what the control is for. -/
theorem decides_control (kind : ControlKind)
    (i : Fin (controlIds c.controller.feed kind).length) :
  Decides c (.control kind)
    [.chosen (whichPost kind) (controlIds c.controller.feed kind) (.given i)]
    (controlAction kind ((controlIds c.controller.feed kind).get i))
  := by
  cases kind with
  | subscribe => exact Decides.subscribe i
  | unsubscribe => exact Decides.unsubscribe i
  | delete => exact Decides.delete i

/-- With a user who answers, an entry decides on an action or nothing, or ends the session. -/
theorem decide_cases {entry : Entry} (h : (decide c entry).Runs events decision)
    (hattended : ∀ event ∈ events, event.Attended) :
  (∃ action, decision = .act action ∧ Decides c entry events action)
    ∨ (decision = .skip ∧ Skips c entry events)
    ∨ (decision = .leave .success ∧ entry = .quit ∧ events = [])
  := by
  cases entry with
  | post =>
      obtain ⟨contents, rfl, rfl⟩ | ⟨rfl, rfl⟩ := decided_of_runs_ask h hattended
      · exact .inl ⟨_, rfl, Decides.post contents⟩
      · exact .inr (.inl ⟨rfl, Skips.post⟩)
  | control kind =>
      obtain ⟨hids, rfl, rfl⟩ | ⟨hids, answer, rfl, rfl⟩ := runs_pick h
      · exact .inr (.inl ⟨rfl, Skips.noPosts hids⟩)
      · cases answer with
        | given i => exact .inl ⟨_, rfl, decides_control kind i⟩
        | cancelled => exact .inr (.inl ⟨rfl, Skips.control hids⟩)
        | unavailable =>
            have hanswer := hattended _ List.mem_cons_self
            contradiction
  | view view =>
      obtain ⟨rfl, rfl⟩ := Dialogue.runs_pure.mp h
      exact .inl ⟨_, rfl, Decides.view view⟩
  | switchUser =>
      obtain ⟨user, rfl, rfl⟩ | ⟨rfl, rfl⟩ := decided_of_runs_ask h hattended
      · exact .inl ⟨_, rfl, Decides.switchUser user⟩
      · exact .inr (.inl ⟨rfl, Skips.switchUser⟩)
  | refresh =>
      obtain ⟨rfl, rfl⟩ := Dialogue.runs_pure.mp h
      exact .inl ⟨_, rfl, Decides.refresh⟩
  | quit =>
      obtain ⟨rfl, rfl⟩ := Dialogue.runs_pure.mp h
      exact .inr (.inr ⟨rfl, rfl, rfl⟩)

end

/-! ### Turns -/

/-- A turn of a session. -/
structure Turn where
  before : Client
  /-- What the user is asked. -/
  asked : List Event
  /-- What is done, if anything is. -/
  deed? : Option Deed
  after : Client

namespace Turn

/-- The requests of a turn with what came back. -/
def sent (turn : Turn) : List Sent :=
  turn.deed?.elim [] Deed.sent

/-- What is shown in a turn. -/
def shown (turn : Turn) : List String :=
  turn.deed?.elim [] fun _ => [turn.after.screen]

/-- What happens in a turn: the user is asked, then what has to be sent for the action is sent, and
then the feed is shown. -/
def events (turn : Turn) : List Event :=
  turn.asked ++ turn.sent.map .sent ++ turn.shown.map .printed

/-- What the menu leads to in a turn. -/
inductive Lawful : Turn → Prop
  | acting {c c' : Client} {pick : Pick} {prompts : List Event} {deed : Deed}
      (hdecides : Decides c pick.entry prompts deed.action) (hdoes : c.Does deed c') :
    Lawful ⟨c, .menu c (.given pick) :: prompts, some deed, c'⟩
  | idle {c : Client} {pick : Pick} {prompts : List Event} (hskips : Skips c pick.entry prompts) :
    Lawful ⟨c, .menu c (.given pick) :: prompts, none, c⟩

end Turn

/-- What can be seen of a turn. An action shows the feed once, as it has left it; without an action
nothing is sent, the feed is not shown, and the client stays as it is. -/
structure Turn.Told (turn : Turn) : Prop where
  sent : turn.events.filterMap Event.sent? = turn.sent
  acting : ∀ deed, turn.deed? = some deed →
    turn.events.filterMap Event.printed? = [turn.after.screen]
      ∧ deed.outcome.refresh? ≠ some .stale
  idle : turn.deed? = none →
    turn.events.filterMap Event.sent? = [] ∧ turn.after = turn.before
      ∧ ∀ c : Client, c.screen ∉ turn.events.filterMap Event.printed?

/-- The feed is not shown by saying that there is no post to choose. -/
theorem screen_ne_noPosts (c : Client) (kind : ControlKind) :
  c.screen ≠ noPosts kind
  := by
  intro h
  have hscreen : c.screen.toList.head? = some '\n' := by
    rw [Client.screen, String.append_assoc, String.toList_append]
    rfl
  have hnoPosts : (noPosts kind).toList.head? = some (Char.ofNat 27) := by
    cases kind <;> decide
  rw [h, hnoPosts] at hscreen
  revert hscreen
  decide

section

variable {c c' : Client} {entry : Entry} {events : List Event}

/-- To decide on an action, the user is asked, and nothing else happens. -/
theorem Decides.quiet {action : Action} (h : Decides c entry events action) :
  events.filterMap Event.sent? = [] ∧ events.filterMap Event.printed? = []
  := by
  cases h <;> exact ⟨rfl, rfl⟩

/-- Without an action, the feed is not shown. -/
theorem Skips.quiet (h : Skips c entry events) :
  events.filterMap Event.sent? = []
    ∧ ∀ c : Client, c.screen ∉ events.filterMap Event.printed?
  := by
  cases h with
  | @noPosts kind h =>
      refine ⟨rfl, ?_⟩
      intro c hmem
      apply screen_ne_noPosts c kind
      apply List.mem_singleton.mp hmem
  | _ => exact ⟨rfl, fun c => List.not_mem_nil⟩

namespace Turn

theorem filterMap_sent?_events (turn : Turn) :
  turn.events.filterMap Event.sent? = turn.asked.filterMap Event.sent? ++ turn.sent
  := by
  rw [events, List.filterMap_append, List.filterMap_append]
  rw [Event.filterMap_sent?_map_sent, Event.filterMap_sent?_map_printed, List.append_nil]

theorem filterMap_printed?_events (turn : Turn) :
  turn.events.filterMap Event.printed? = turn.asked.filterMap Event.printed? ++ turn.shown
  := by
  rw [events, List.filterMap_append, List.filterMap_append]
  rw [Event.filterMap_printed?_map_sent, Event.filterMap_printed?_map_printed, List.append_nil]

section

variable {asked : List Event} (hsent : asked.filterMap Event.sent? = [])
include hsent

/-- An action before which nothing is sent or printed. -/
theorem told_of_does {deed : Deed} (hdoes : c.Does deed c')
    (hprinted : asked.filterMap Event.printed? = []) :
  Told ⟨c, asked, some deed, c'⟩
  where
  sent := by
    rw [filterMap_sent?_events, hsent, List.nil_append]
  acting := by
    rintro deed ⟨rfl⟩
    rw [filterMap_printed?_events, hprinted]
    exact ⟨rfl, hdoes.performed.not_stale⟩
  idle := by
    rintro ⟨⟩

/-- Nothing is sent, and the feed is not shown. -/
theorem told_of_idle (hprinted : ∀ c : Client, c.screen ∉ asked.filterMap Event.printed?) :
  Told ⟨c, asked, none, c⟩
  where
  sent := by
    rw [filterMap_sent?_events, hsent, List.nil_append]
  acting := by
    rintro deed ⟨⟩
  idle := by
    intro _
    rw [filterMap_sent?_events, filterMap_printed?_events, hsent]
    refine ⟨rfl, rfl, ?_⟩
    intro c
    rw [shown, Option.elim_none, List.append_nil]
    apply hprinted

end

theorem Lawful.told {turn : Turn} (h : turn.Lawful) :
  turn.Told
  := by
  cases h with
  | @acting c c' pick prompts deed hdecides hdoes =>
      obtain ⟨hsent, hprinted⟩ := hdecides.quiet
      have hmenu : (Event.menu c (.given pick) :: prompts).filterMap Event.sent? = [] := hsent
      apply told_of_does hmenu hdoes hprinted
  | @idle c pick prompts hskips =>
      obtain ⟨hsent, hprinted⟩ := hskips.quiet
      have hmenu : (Event.menu c (.given pick) :: prompts).filterMap Event.sent? = [] := hsent
      apply told_of_idle hmenu hprinted

end Turn

end

/-- How the rounds of a session stop: the user leaves, or there are no rounds left. -/
inductive Stops (c : Client) : List Event → Stage → Prop
  | leaving {answer : Prompted Pick} (h : Leaves answer) :
    Stops c [.menu c answer] (.ended .success)
  | paused : Stops c [] (.session c)

/-- Nothing happens after the end of a session. -/
theorem rounds_ended (limit : Nat) (exit : Exit) :
  rounds limit (.ended exit) = pure (.ended exit)
  := by
  cases limit <;> rfl

section

variable {c c' : Client} {events : List Event} {stage : Stage}

theorem runs_actAndShow (hnav : c.controller.nav.Standard) {action : Action}
    (h : (actAndShow c action).Runs events c') :
  ∃ deed, deed.action = action ∧ c.Does deed c'
    ∧ events = deed.sent.map .sent ++ [.printed c'.screen]
  := by
  obtain ⟨acted, ⟨c₁, outcome⟩, later, hacted, hlater, rfl⟩ := Dialogue.runs_bind.mp h
  obtain ⟨shown, a, none, hshown, hnone, rfl⟩ := Dialogue.runs_bind.mp hlater
  obtain ⟨rfl, rfl⟩ := Dialogue.runs_pure.mp hnone
  obtain ⟨calls, sent, hdoes, rfl⟩ := Client.does_of_runs_act hnav hacted
  obtain rfl := runs_print.mp hshown
  exact ⟨_, rfl, hdoes, rfl⟩

/-- With a user who answers, a round is a turn or the end of the session. -/
theorem round_cases (hnav : c.controller.nav.Standard) (h : (round c).Runs events stage)
    (hattended : ∀ event ∈ events, event.Attended) :
  (∃ turn : Turn, turn.before = c ∧ turn.Lawful ∧ events = turn.events
      ∧ stage = .session turn.after)
    ∨ (Stops c events stage ∧ stage = .ended .success)
  := by
  obtain ⟨menu, answer, rest, hmenu, hrest, rfl⟩ := Dialogue.runs_bind.mp h
  obtain rfl := runs_choose.mp hmenu
  obtain ⟨hanswered, hfollowing⟩ := List.forall_mem_append.mp hattended
  cases answer with
  | cancelled =>
      obtain ⟨rfl, rfl⟩ := Dialogue.runs_pure.mp hrest
      exact .inr ⟨Stops.leaving Leaves.cancelled, rfl⟩
  | unavailable =>
      have hanswer := hanswered _ List.mem_cons_self
      contradiction
  | given pick =>
      obtain ⟨prompts, decision, later, hdecide, hlater, rfl⟩ := Dialogue.runs_bind.mp hrest
      obtain ⟨hprompted, -⟩ := List.forall_mem_append.mp hfollowing
      obtain ⟨action, rfl, hdecides⟩ | ⟨rfl, hskips⟩ | ⟨rfl, hquit, rfl⟩ :=
        decide_cases hdecide hprompted
      · obtain ⟨acted, c', none, hacted, hnone, rfl⟩ := Dialogue.runs_bind.mp hlater
        obtain ⟨rfl, rfl⟩ := Dialogue.runs_pure.mp hnone
        obtain ⟨deed, rfl, hdoes, rfl⟩ := runs_actAndShow hnav hacted
        left
        refine ⟨⟨c, .menu c (.given pick) :: prompts, some deed, c'⟩, rfl, ?_, ?_, rfl⟩
        · apply Turn.Lawful.acting hdecides hdoes
        · simp [Turn.events, Turn.sent, Turn.shown, Event.menu]
      · obtain ⟨rfl, rfl⟩ := Dialogue.runs_pure.mp hlater
        left
        refine ⟨⟨c, .menu c (.given pick) :: prompts, none, c⟩, rfl, ?_, ?_, rfl⟩
        · apply Turn.Lawful.idle hskips
        · simp [Turn.events, Turn.sent, Turn.shown, Event.menu]
      · obtain ⟨rfl, rfl⟩ := Dialogue.runs_pure.mp hlater
        exact .inr ⟨Stops.leaving (Leaves.quit hquit), rfl⟩

end

end FeedClient.Program

namespace FeedClient.Client

open Program

/-- In these turns of a session a client becomes another. -/
inductive Takes (start : Client) : List Turn → Client → Prop
  /-- The turn that opens the session. -/
  | opening {c : Client} {deed : Deed} (haction : deed.action = .refresh)
      (hdoes : start.Does deed c) :
    Takes start [⟨start, [], some deed, c⟩] c
  | turn {turns : List Turn} {turn : Turn} (h : Takes start turns turn.before)
      (hlawful : turn.Lawful) :
    Takes start (turns ++ [turn]) turn.after

variable {start c : Client} {turns : List Turn}

/-- What every action keeps holds as long as a session lasts. -/
theorem Takes.keeps (h : start.Takes turns c) {P : Client → Prop} (hstart : P start)
    (hdoes : ∀ {c deed c'}, Does c deed c' → P c → P c') :
  P c
  := by
  induction h with
  | opening haction hopening => apply hdoes hopening hstart
  | turn h hlawful ih =>
      cases hlawful with
      | acting hdecides hacting => apply hdoes hacting ih
      | idle hskips => apply ih

theorem Takes.standard (h : start.Takes turns c) (hstart : start.controller.nav.Standard) :
  c.controller.nav.Standard
  := h.keeps (P := fun c => c.controller.nav.Standard) hstart
    fun hdoes hnav => hdoes.performed.standard hnav

/-- With a user who answers, the rounds of a session are turns, until they stop. -/
theorem takes_of_runs_rounds (hstart : start.controller.nav.Standard)
    (htakes : start.Takes turns c) {limit : Nat} {events : List Event} {stage : Stage}
    (h : (rounds limit (.session c)).Runs events stage)
    (hattended : ∀ event ∈ events, event.Attended) :
  ∃ more c' farewell, start.Takes (turns ++ more) c' ∧ Stops c' farewell stage
    ∧ events = more.flatMap Turn.events ++ farewell
    ∧ (stage = .session c' → more.length = limit)
  := by
  induction limit generalizing turns c events with
  | zero =>
      obtain ⟨rfl, rfl⟩ := Dialogue.runs_pure.mp h
      refine ⟨[], c, [], ?_, Stops.paused, rfl, fun _ => rfl⟩
      rw [List.append_nil]
      apply htakes
  | succ limit ih =>
      obtain ⟨first, reached, rest, hfirst, hrest, rfl⟩ := Dialogue.runs_bind.mp h
      obtain ⟨hround, hrounds⟩ := List.forall_mem_append.mp hattended
      obtain ⟨turn, rfl, hlawful, rfl, rfl⟩ | ⟨hstops, rfl⟩ :=
        round_cases (htakes.standard hstart) hfirst hround
      · obtain ⟨more, c', farewell, hmore, hstops, rfl, hlength⟩ :=
          ih (htakes.turn hlawful) hrest hrounds
        refine ⟨turn :: more, c', farewell, ?_, hstops, ?_, ?_⟩
        · rw [List.append_cons]
          apply hmore
        · rw [List.flatMap_cons, List.append_assoc]
        · intro hstage
          rw [List.length_cons, hlength hstage]
      · rw [rounds_ended] at hrest
        obtain ⟨rfl, rfl⟩ := Dialogue.runs_pure.mp hrest
        refine ⟨[], c, first, ?_, hstops, List.append_nil _, ?_⟩
        · rw [List.append_nil]
          apply htakes
        · intro hstage
          cases hstage

theorem Takes.told (h : start.Takes turns c) :
  ∀ turn ∈ turns, turn.Told
  := by
  induction h with
  | opening haction hopening =>
      intro turn hmem
      obtain rfl := List.mem_singleton.mp hmem
      exact Turn.told_of_does rfl hopening rfl
  | turn h hlawful ih =>
      intro turn hmem
      obtain hmem | hmem := List.mem_append.mp hmem
      · apply ih turn hmem
      · obtain rfl := List.mem_singleton.mp hmem
        apply hlawful.told

end FeedClient.Client

namespace FeedClient.Program

variable {start c : Client} {turns : List Turn}

/-- The requests of a session are those of its turns. -/
theorem filterMap_sent?_flatMap_events (h : ∀ turn ∈ turns, turn.Told) :
  (turns.flatMap Turn.events).filterMap Event.sent? = turns.flatMap Turn.sent
  := by
  induction turns with
  | nil => rfl
  | cons turn turns ih =>
      obtain ⟨hturn, hturns⟩ := List.forall_mem_cons.mp h
      rw [List.flatMap_cons, List.flatMap_cons, List.filterMap_append, hturn.sent, ih hturns]

theorem Stops.quiet {farewell : List Event} {stage : Stage} (h : Stops c farewell stage) :
  farewell.filterMap Event.sent? = [] ∧ farewell.filterMap Event.printed? = []
  := by
  cases h <;> exact ⟨rfl, rfl⟩

/-- Before the end of a session, nothing is left to be said. -/
theorem Stops.of_session {c' : Client} {farewell : List Event} {stage : Stage}
    (h : Stops c farewell stage) (hstage : stage = .session c') :
  c' = c ∧ farewell = []
  := by
  cases h with
  | leaving h => cases hstage
  | paused =>
      cases hstage
      exact ⟨rfl, rfl⟩

/-- With a user who answers, a session is the turns of a client from its start on. -/
theorem takes_of_runs_shell (config : Configuration) (zone : Zone) {limit : Nat}
    {events : List Event} {stage : Stage}
    (h : (ofCommand config .shell zone >>= rounds limit).Runs events stage)
    (hattended : ∀ event ∈ events, event.Attended) :
  ∃ turns c farewell, (Client.start config zone).Takes turns c ∧ Stops c farewell stage
    ∧ events = turns.flatMap Turn.events ++ farewell
    ∧ (stage = .session c → turns.length = limit + 1)
  := by
  have hstart : (Client.start config zone).controller.nav.Standard := NavBar.standard_ofView _
  obtain ⟨first, opened, rest, hfirst, hrest, rfl⟩ := Dialogue.runs_bind.mp h
  obtain ⟨acted, c, none, hacted, hnone, rfl⟩ := Dialogue.runs_bind.mp hfirst
  obtain ⟨rfl, rfl⟩ := Dialogue.runs_pure.mp hnone
  obtain ⟨deed, haction, hdoes, rfl⟩ := runs_actAndShow hstart hacted
  obtain ⟨-, hrounds⟩ := List.forall_mem_append.mp hattended
  obtain ⟨more, c', farewell, htakes, hstops, rfl, hlength⟩ :=
    Client.takes_of_runs_rounds hstart (Client.Takes.opening haction hdoes) hrest hrounds
  refine ⟨_, c', farewell, htakes, hstops, ?_, ?_⟩
  · simp [Turn.events, Turn.sent, Turn.shown]
  · intro hstage
    rw [List.length_append, hlength hstage, Nat.add_comm]
    rfl

/-- Whatever the user of a session does and the server answers, the session is the turns of a
client. It sends what its turns send and nothing else; each turn shows the feed once or does
nothing; no refresh is stale; and when the session ends, it has succeeded. -/
theorem shell_session {σ : Type} (world : World σ) (hworld : world.Attended) (s : σ)
    (config : Configuration) (zone : Zone) (limit : Nat) :
  let ran := (ofCommand config .shell zone >>= rounds limit).record world s
  ∃ turns c farewell, (Client.start config zone).Takes turns c ∧ Stops c farewell ran.2
    ∧ ran.1 = turns.flatMap Turn.events ++ farewell
    ∧ (ran.2 = .session c → turns.length = limit + 1)
    ∧ ran.1.filterMap Event.sent? = turns.flatMap Turn.sent
    ∧ ∀ turn ∈ turns, turn.Told
  := by
  intro ran
  obtain ⟨turns, c, farewell, htakes, hstops, hevents, hlength⟩ :=
    takes_of_runs_shell config zone (Dialogue.runs_record world _ s) (hworld.record _ s)
  refine ⟨turns, c, farewell, htakes, hstops, hevents, hlength, ?_, htakes.told⟩
  rw [hevents, List.filterMap_append, hstops.quiet.1, List.append_nil]
  apply filterMap_sent?_flatMap_events htakes.told

/-- The user looks for a post to delete, posts an empty text, shows another view, and leaves. The
server fails once and is silent then. -/
theorem shell_session_silent :
  let config : Configuration := ⟨"http://localhost", "ann", .home, 30, {}⟩
  let script : Script := ⟨[{ status := 500 }], [1, 0, 5, 9]⟩
  let zone : Zone := .utc
  let ran := (ofCommand config .shell zone >>= rounds 4).record World.scripted script
  World.scripted.Attended
    ∧ (ran.1.filterMap Event.sent?).map (fun sent => (sent.1.method, sent.1.url.target))
      = [(.get, "/home?UserID=ann"), (.post, "/posts"), (.get, "/timeline?UserID=ann")]
    ∧ ∃ turns c farewell, (Client.start config zone).Takes turns c ∧ Stops c farewell ran.2
      ∧ ran.1 = turns.flatMap Turn.events ++ farewell
      ∧ (ran.2 = .session c → turns.length = 5)
      ∧ ran.1.filterMap Event.sent? = turns.flatMap Turn.sent
      ∧ ∀ turn ∈ turns, turn.Told
  := by
  refine ⟨World.attended_scripted, ?_, shell_session _ World.attended_scripted _ _ _ 4⟩
  decide +kernel

end FeedClient.Program
