import FeedClient.View

/-!
# Invocations

An invocation of the program is a command and what the options and the environment say. Without a
command the program opens an interactive session.
-/

namespace FeedClient

/-- How much of what the program does is logged. -/
inductive LogLevel
  | trace
  | debug
  | info
  | warn
  | error
  | off
deriving DecidableEq, Repr

namespace LogLevel

def all : List LogLevel :=
  [trace, debug, info, warn, error, off]

def name : LogLevel → String
  | trace => "trace"
  | debug => "debug"
  | info => "info"
  | warn => "warn"
  | error => "error"
  | off => "off"

/-- The level as log lines show it. -/
def filter (level : LogLevel) : String :=
  level.name.toUpper

end LogLevel

/-- What the program is told to do. -/
inductive Command
  | feed
  | post (contents : String)
  | delete (tag : String)
  | subscribe (target : String)
  | unsubscribe (target : String)
  | register
  | shell
deriving DecidableEq, Repr

/-- A command and what is given with it. -/
structure Invocation where
  server : Option String := none
  user : Option String := none
  view : Option View := none
  /-- In seconds. -/
  timeout : Option UInt64 := none
  logLevel : Option LogLevel := none
  command : Option Command := none
deriving DecidableEq, Repr

/-- The log level that holds when none is given. -/
def LogLevel.usual : LogLevel :=
  info

/-- What the environment says. -/
structure Environment where
  server : Option String := none
  user : Option String := none
deriving DecidableEq, Repr

/-- The invocation together with the environment, which counts where the invocation is silent. -/
def Invocation.within (i : Invocation) (env : Environment) : Invocation :=
  { i with server := i.server.or env.server, user := i.user.or env.user }

end FeedClient
