import FeedClient.Http.Message
import FeedClient.Prompt

/-!
# What the program asks for

The program asks the server by requests and the user by prompts, and it prints. All of this is one
dialogue, so that the order of everything it does is part of what it is.
-/

namespace FeedClient.Program

/-- What the program asks for. -/
inductive Question
  | send (request : Http.Request)
  | print (text : String)
  /-- The user chooses one of the options. -/
  | choose (message : String) (count : Nat) (option : Fin count → String)
  /-- The user writes a line, which is filled in already. -/
  | write (message initial : String)

/-- What the answer to a question is. -/
def Answer : Question → Type
  | .send _ => Option Http.Response
  | .print _ => Unit
  | .choose _ count _ => Prompted (Fin count)
  | .write _ _ => Prompted String

end Program

/-- What the program does, up to a result. -/
abbrev Program : Type → Type :=
  Dialogue Program.Answer

namespace Program

/-- How the program ends. -/
inductive Exit
  | success
  | failure (message : String)
deriving DecidableEq, Repr

def Exit.code : Exit → UInt8
  | success => 0
  | failure _ => 1

/-- The line that is written to the error stream. -/
def Exit.errorLine? : Exit → Option String
  | success => none
  | failure message => some ("Error: " ++ message)

def print (text : String) : Program Unit :=
  Dialogue.question (Question.print text)

def printLine (text : String) : Program Unit :=
  print (text ++ "\n")

/-- Lets the user choose one of the options. -/
def choose (message : String) (options : List String) : Program (Prompted (Fin options.length)) :=
  Dialogue.question (Question.choose message options.length options.get)

/-- Lets the user write a line. -/
def write (message initial : String) : Program (Prompted String) :=
  Dialogue.question (Question.write message initial)

/-- Sends the requests of an exchange. -/
def ofExchange {α : Type} (exchange : Http.Exchange α) : Program α :=
  exchange.run fun request => Dialogue.question (Question.send request)

end FeedClient.Program
