import FeedClient.Dialogue

/-!
# How dialogues run

A run of a dialogue is a path through it: the questions that are asked, with the answers that are
given to them, and the result at the end. A dialogue that goes on with the result of another runs
through the other first. Whoever answers, and whatever the answers depend on, makes a dialogue take
one of its runs; so what is shown of all runs holds whoever answers.
-/

namespace FeedClient.Dialogue

variable {Question : Type} {Answer : Question → Type} {α β σ : Type}

/-- A question with its answer. -/
abbrev Event (Answer : Question → Type) : Type :=
  (question : Question) × Answer question

/-- A dialogue asks these questions, is given these answers and ends with this result. -/
inductive Runs : Dialogue Answer α → List (Event Answer) → α → Prop
  | done (a : α) : Runs (done a) [] a
  | ask {question : Question} {next : Answer question → Dialogue Answer α}
      (answer : Answer question) {events : List (Event Answer)} {a : α}
      (h : Runs (next answer) events a) :
    Runs (ask question next) (⟨question, answer⟩ :: events) a

section

variable {events : List (Event Answer)}

@[simp]
theorem runs_done {a b : α} :
  (done a : Dialogue Answer α).Runs events b ↔ events = [] ∧ b = a
  := by
  constructor
  · intro h
    cases h
    exact ⟨rfl, rfl⟩
  · rintro ⟨rfl, rfl⟩
    apply Runs.done

@[simp]
theorem runs_pure {a b : α} :
  (pure a : Dialogue Answer α).Runs events b ↔ events = [] ∧ b = a
  := runs_done

theorem runs_ask {question : Question} {next : Answer question → Dialogue Answer α} {a : α} :
  (ask question next).Runs events a
    ↔ ∃ answer rest, (next answer).Runs rest a ∧ events = ⟨question, answer⟩ :: rest
  := by
  constructor
  · intro h
    cases h with
    | ask answer h => exact ⟨answer, _, h, rfl⟩
  · rintro ⟨answer, rest, h, rfl⟩
    apply Runs.ask answer h

@[simp]
theorem runs_question {q : Question} {a : Answer q} :
  (question q).Runs events a ↔ events = [⟨q, a⟩]
  := by
  rw [question, runs_ask]
  constructor
  · rintro ⟨answer, rest, h, rfl⟩
    obtain ⟨rfl, rfl⟩ := runs_done.mp h
    rfl
  · rintro rfl
    exact ⟨a, [], Runs.done a, rfl⟩

/-- What goes on with the result of a dialogue runs after it. -/
theorem runs_bind {d : Dialogue Answer α} {f : α → Dialogue Answer β} {b : β} :
  (d >>= f).Runs events b
    ↔ ∃ first a rest, d.Runs first a ∧ (f a).Runs rest b ∧ events = first ++ rest
  := by
  induction d generalizing events with
  | done a =>
      constructor
      · intro h
        exact ⟨[], a, events, Runs.done a, h, rfl⟩
      · rintro ⟨first, a', rest, hfirst, hrest, rfl⟩
        obtain ⟨rfl, rfl⟩ := runs_done.mp hfirst
        apply hrest
  | ask q next ih =>
      have hbind : ask q next >>= f = ask q fun answer => next answer >>= f := rfl
      rw [hbind, runs_ask]
      constructor
      · rintro ⟨answer, tail, h, rfl⟩
        obtain ⟨first, a, rest, hfirst, hrest, rfl⟩ := (ih answer).mp h
        exact ⟨⟨q, answer⟩ :: first, a, rest, Runs.ask answer hfirst, hrest, rfl⟩
      · rintro ⟨first, a, rest, hfirst, hrest, rfl⟩
        obtain ⟨answer, tail, h, rfl⟩ := runs_ask.mp hfirst
        exact ⟨answer, tail ++ rest, (ih answer).mpr ⟨tail, a, rest, h, hrest, rfl⟩, rfl⟩

end

/-! ### Carrying out a dialogue -/

/-- Answers, and keeps what was asked and how it was answered. -/
def logged (answer : (q : Question) → StateM σ (Answer q)) :
    (q : Question) → StateM (σ × List (Event Answer)) (Answer q) := fun q (s, events) =>
  let (a, s) := answer q s
  (a, s, events ++ [⟨q, a⟩])

/-- What is asked and answered when a dialogue is carried out, and the result. -/
def record (answer : (q : Question) → StateM σ (Answer q)) (d : Dialogue Answer α) (s : σ) :
    List (Event Answer) × α :=
  let (a, _, events) := (d.run (logged answer)).run (s, [])
  (events, a)

section

variable (answer : (q : Question) → StateM σ (Answer q)) (d : Dialogue Answer α) (s : σ)

private theorem exists_run_logged (events : List (Event Answer)) :
  ∃ a s' more, (d.run (logged answer)).run (s, events) = (a, s', events ++ more)
    ∧ d.Runs more a ∧ ∀ event ∈ more, ∃ s, event.2 = (answer event.1 s).1
  := by
  induction d generalizing s events with
  | done a =>
      have hrun : ((done a).run (logged answer)).run (s, events) = (a, s, events ++ []) := by
        rw [List.append_nil]
        rfl
      exact ⟨a, s, [], hrun, Runs.done a, by simp⟩
  | ask q next ih =>
      rcases hanswer : answer q s with ⟨reply, s₁⟩
      obtain ⟨a, s', more, hrun, hruns, hmem⟩ := ih reply s₁ (events ++ [⟨q, reply⟩])
      refine ⟨a, s', ⟨q, reply⟩ :: more, ?_, Runs.ask reply hruns, ?_⟩
      · have hlogged : (logged answer q).run (s, events) = (reply, s₁, events ++ [⟨q, reply⟩]) := by
          simp only [logged, StateT.run, hanswer]
        rw [run_ask, StateT.run_bind, hlogged]
        rw [List.append_assoc] at hrun
        apply hrun
      · intro event hevent
        obtain rfl | hevent := List.mem_cons.mp hevent
        · exact ⟨s, by rw [hanswer]⟩
        · apply hmem event hevent

/-- Whoever answers makes a dialogue take one of its runs. -/
theorem runs_record :
  d.Runs (d.record answer s).1 (d.record answer s).2
  := by
  obtain ⟨a, s', more, hrun, hruns, -⟩ := exists_run_logged answer d s []
  simp only [record, hrun]
  apply hruns

/-- What is kept are the answers that were given. -/
theorem exists_of_mem_record {event : Event Answer} (h : event ∈ (d.record answer s).1) :
  ∃ s, event.2 = (answer event.1 s).1
  := by
  obtain ⟨a, s', more, hrun, -, hmem⟩ := exists_run_logged answer d s []
  simp only [record, hrun] at h
  apply hmem event h

end

end FeedClient.Dialogue
