import FeedClient.Program.Question
import FeedClient.Proofs.Gateway.Calls

/-!
# What a program is told

A program talks to a world: a server that answers its requests, a user who answers its prompts, and
a screen. The world answers every question and goes on to another state. What was said in a run is a
list of events, from which the requests and the output can be read off.
-/

namespace FeedClient.Program

open Http (Request Response Sent Exchange)

/-- Everything that a program talks to. -/
abbrev World (σ : Type) : Type :=
  (q : Question) → StateM σ (Answer q)

/-- A question of a program with its answer. -/
abbrev Event : Type :=
  Dialogue.Event Answer

namespace Event

/-- A request with what came back. -/
def sent (exchanged : Sent) : Event :=
  ⟨.send exchanged.1, exchanged.2⟩

/-- A text that was printed. -/
def printed (text : String) : Event :=
  ⟨.print text, ()⟩

/-- A choice with the answer of the user. -/
def chosen (message : String) (options : List String)
    (answer : Prompted (Fin options.length)) : Event :=
  ⟨.choose message options.length options.get, answer⟩

/-- A line with the answer of the user. -/
def written (message initial : String) (answer : Prompted String) : Event :=
  ⟨.write message initial, answer⟩

/-- The request of an event with what came back, if the event is a request. -/
def sent? : Event → Option Sent
  | ⟨.send request, response⟩ => some ⟨request, response⟩
  | _ => none

/-- The text of an event, if it was printed. -/
def printed? : Event → Option String
  | ⟨.print text, _⟩ => some text
  | _ => none

/-- There is a user who answers, if this is a question to the user. -/
def Attended : Event → Prop
  | ⟨.choose _ _ _, answer⟩ => answer ≠ Prompted.unavailable
  | ⟨.write _ _, answer⟩ => answer ≠ Prompted.unavailable
  | _ => True

theorem filterMap_sent?_map_sent (log : List Sent) :
  (log.map sent).filterMap sent? = log
  := by
  rw [List.filterMap_map]
  exact List.filterMap_some

theorem filterMap_printed?_map_sent (log : List Sent) :
  (log.map sent).filterMap printed? = []
  := by
  rw [List.filterMap_map, List.filterMap_eq_nil_iff]
  intro exchanged _
  rfl

theorem filterMap_sent?_map_printed (texts : List String) :
  (texts.map printed).filterMap sent? = []
  := by
  rw [List.filterMap_map, List.filterMap_eq_nil_iff]
  intro text _
  rfl

theorem filterMap_printed?_map_printed (texts : List String) :
  (texts.map printed).filterMap printed? = texts
  := by
  rw [List.filterMap_map]
  exact List.filterMap_some

end Event

/-- A world with a user who answers every prompt, or cancels it. -/
def World.Attended {σ : Type} (world : World σ) : Prop :=
  ∀ q s, Event.Attended ⟨q, (world q s).1⟩

theorem World.Attended.record {σ α : Type} {world : World σ} (h : world.Attended)
    (program : Program α) (s : σ) :
  ∀ event ∈ (program.record world s).1, Event.Attended event
  := by
  rintro ⟨q, answer⟩ hmem
  obtain ⟨s', hanswer⟩ := Dialogue.exists_of_mem_record world program s hmem
  dsimp only at hanswer
  rw [hanswer]
  apply h

/-! ### Worlds that follow a script -/

/-- What is left of a script. -/
structure Script where
  responses : List Response
  /-- The numbers of the options that the user chooses. -/
  picks : List Nat

/-- The choice of the option with a number, or none if there is no such option. -/
def pickOf (count number : Nat) : Prompted (Fin count) :=
  if h : number < count then .given ⟨number, h⟩ else .cancelled

theorem pickOf_ne_unavailable (count number : Nat) :
  pickOf count number ≠ .unavailable
  := by
  rw [pickOf]
  split <;> simp

/-- The user of a script chooses what it says, and cancels when it is at an end. A line is left as
it was filled in. The server is silent when the script is at an end. -/
def World.scripted : World Script
  | .send _ => fun s => (s.responses.head?, { s with responses := s.responses.tail })
  | .print _ => fun s => ((), s)
  | .choose _ count _ => fun s =>
    (pickOf count (s.picks.headD count), { s with picks := s.picks.tail })
  | .write _ initial => fun s => (.given initial, s)

theorem World.attended_scripted :
  scripted.Attended
  := by
  intro q s
  cases q with
  | send request => trivial
  | print text => trivial
  | choose message count option => apply pickOf_ne_unavailable
  | write message initial =>
      intro h
      cases h

/-! ### Runs of what a program is made of -/

section

variable {events : List Event}

theorem runs_print {text : String} {a : Unit} :
  (print text).Runs events a ↔ events = [.printed text]
  := Dialogue.runs_question

theorem runs_choose {message : String} {options : List String}
    {answer : Prompted (Fin options.length)} :
  (choose message options).Runs events answer ↔ events = [.chosen message options answer]
  := Dialogue.runs_question

theorem runs_write {message initial : String} {answer : Prompted String} :
  (write message initial).Runs events answer ↔ events = [.written message initial answer]
  := Dialogue.runs_question

/-- An exchange of a program runs as it does by itself. -/
theorem runs_ofExchange {α : Type} {exchange : Exchange α} {a : α}
    (h : (ofExchange exchange).Runs events a) :
  ∃ log, exchange.Runs log a ∧ events = log.map .sent
  := by
  induction exchange generalizing events with
  | done b =>
      obtain ⟨rfl, rfl⟩ := Dialogue.runs_pure.mp h
      exact ⟨[], Dialogue.Runs.done _, rfl⟩
  | ask request next ih =>
      have hask : ofExchange (.ask request next)
          = Dialogue.question (Question.send request) >>= fun response =>
              ofExchange (next response) := rfl
      rw [hask, Dialogue.runs_bind] at h
      obtain ⟨first, response, rest, hfirst, hrest, rfl⟩ := h
      obtain rfl := Dialogue.runs_question.mp hfirst
      obtain ⟨log, hlog, rfl⟩ := ih response hrest
      have hruns : (Dialogue.ask request next).Runs (⟨request, response⟩ :: log) a :=
        Dialogue.runs_ask.mpr ⟨response, log, hlog, rfl⟩
      exact ⟨⟨request, response⟩ :: log, hruns, rfl⟩

/-- Lines are printed one after another. -/
theorem runs_forM_printLine {lines : List String} {a : Unit}
    (h : (lines.forM printLine).Runs events a) :
  events = lines.map fun line => .printed (line ++ "\n")
  := by
  induction lines generalizing events with
  | nil => exact (Dialogue.runs_pure.mp h).1
  | cons line lines ih =>
      obtain ⟨first, b, rest, hfirst, hrest, rfl⟩ := Dialogue.runs_bind.mp h
      obtain rfl := runs_print.mp hfirst
      rw [ih hrest]
      rfl

end

end FeedClient.Program
