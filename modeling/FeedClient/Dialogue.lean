/-!
# Dialogues

A dialogue is a computation that asks questions and goes on with the answers; what an answer looks
like depends on the question. Who answers is left open: `Dialogue.run` lets any monad answer, and
another dialogue is one of them. So the same dialogue is carried out with the network and reasoned
about with a server that is a function.
-/

namespace FeedClient

/-- A computation that asks questions. -/
inductive Dialogue {Question : Type} (Answer : Question → Type) (α : Type) : Type
  /-- The result. -/
  | done (a : α)
  | ask (question : Question) (next : Answer question → Dialogue Answer α)

namespace Dialogue

variable {Question : Type} {Answer : Question → Type} {α β : Type}

/-- Goes on with the result of a dialogue. -/
def bind : Dialogue Answer α → (α → Dialogue Answer β) → Dialogue Answer β
  | done a, f => f a
  | ask question next, f => ask question fun answer => (next answer).bind f

instance : Monad (Dialogue Answer) where
  pure := done
  bind := bind

/-- The dialogue of one question. -/
def question (q : Question) : Dialogue Answer (Answer q) :=
  ask q done

/-- Carries out a dialogue: every question is answered in a monad. -/
def run {m : Type → Type} [Monad m] (answer : (q : Question) → m (Answer q)) :
    Dialogue Answer α → m α
  | done a => pure a
  | ask question next => do
    let a ← answer question
    (next a).run answer

@[simp] theorem bind_done (a : α) (f : α → Dialogue Answer β) : (done a).bind f = f a := rfl

@[simp] theorem bind_ask (q : Question) (next : Answer q → Dialogue Answer α)
    (f : α → Dialogue Answer β) :
    (ask q next).bind f = ask q fun answer => (next answer).bind f
  := rfl

/-- A dialogue that ends with its result is the dialogue itself. -/
theorem bind_self (d : Dialogue Answer α) : d.bind done = d := by
  induction d with
  | done a => rfl
  | ask q next ih =>
    rw [bind_ask]
    exact congrArg (ask q) (funext ih)

theorem bind_bind {γ : Type} (d : Dialogue Answer α) (f : α → Dialogue Answer β)
    (g : β → Dialogue Answer γ) :
    (d.bind f).bind g = d.bind fun a => (f a).bind g
  := by
  induction d with
  | done a => rfl
  | ask q next ih =>
    rw [bind_ask, bind_ask, bind_ask]
    exact congrArg (ask q) (funext ih)

instance : LawfulMonad (Dialogue Answer) :=
  LawfulMonad.mk' _ bind_self (fun _ _ => rfl) bind_bind

section

variable {m : Type → Type} [Monad m] (answer : (q : Question) → m (Answer q))

@[simp] theorem run_done (a : α) : (done a : Dialogue Answer α).run answer = pure a := rfl

@[simp] theorem run_ask (q : Question) (next : Answer q → Dialogue Answer α) :
    (ask q next).run answer = answer q >>= fun a => (next a).run answer
  := rfl

/-- Whoever answers, a dialogue is carried out before what goes on with its result. -/
theorem run_bind [LawfulMonad m] (d : Dialogue Answer α) (f : α → Dialogue Answer β) :
    (d.bind f).run answer = d.run answer >>= fun a => (f a).run answer
  := by
  induction d with
  | done a => simp
  | ask q next ih => simp [ih]

end

end Dialogue

end FeedClient
