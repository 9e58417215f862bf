import FeedClient.Invocation
import FeedClient.Invocation.Word
import FeedClient.Number.Digit

/-!
# Reading the command line

Options come before the command, each at most once, and the command may take one argument. The value
of an option is looked at late when it is a word of its own: when the next option comes, or at the
end, after the command. So of two faults, the one of the command is reported.
-/

namespace FeedClient.Invocation

/-- Why a command line is not carried out. -/
inductive Refusal
  /-- The user asks for the help text. -/
  | help
  /-- The user asks for the version. -/
  | version
  | unknownArgument
  /-- A value is missing, or is not one of those that can be chosen. -/
  | invalidValue
  /-- A value cannot be read. -/
  | valueValidation
  /-- An option is given twice. -/
  | argumentConflict
  | missingRequiredArgument
  | invalidSubcommand
  /-- A value is attached to an option that takes none. -/
  | tooManyValues
deriving DecidableEq, Repr

/-- The exit code of the program. -/
def Refusal.exitCode : Refusal → UInt8
  | help | version => 0
  | _ => 2

def Refusal.ofInquiry : Inquiry → Refusal
  | .help => .help
  | .version => .version

/-- Whether an option has a value already. -/
def has (i : Invocation) : Setting → Bool
  | .server => i.server.isSome
  | .user => i.user.isSome
  | .view => i.view.isSome
  | .timeout => i.timeout.isSome
  | .logLevel => i.logLevel.isSome

/-- Gives an option its value, which has to be the first. -/
def set (i : Invocation) (setting : Setting) (value : String) : Except Refusal Invocation :=
  if i.has setting then .error .argumentConflict
  else
    match setting with
    | .server => .ok { i with server := value }
    | .user => .ok { i with user := value }
    | .view =>
      match View.ofLabel? value with
      | some view => .ok { i with view }
      | none => .error .valueValidation
    | .timeout =>
      match unsigned? value.toList with
      | some timeout => .ok { i with timeout }
      | none => .error .valueValidation
    | .logLevel =>
      match LogLevel.all.find? fun level => level.name == value with
      | some level => .ok { i with logLevel := level }
      | none => .error .invalidValue

/-- An option that has been named, with the word after it if there has been one. -/
structure Pending where
  setting : Setting
  value : Option String

/-- Settles the option that has been named last. -/
def settle (i : Invocation) : Option Pending → Except Refusal Invocation
  | none => .ok i
  | some ⟨_, none⟩ => .error .invalidValue
  | some ⟨setting, some value⟩ => i.set setting value

/-- The ways to name a command: alone, or with an argument. -/
inductive Form
  | bare (command : Command)
  | withArgument (command : String → Command)

/-- The command of a name. -/
def form? : String → Option Form
  | "feed" => some (.bare .feed)
  | "post" => some (.withArgument .post)
  | "delete" => some (.withArgument .delete)
  | "subscribe" => some (.withArgument .subscribe)
  | "unsubscribe" => some (.withArgument .unsubscribe)
  | "register" => some (.bare .register)
  | "shell" => some (.bare .shell)
  | _ => none

/-- Takes one more word as the argument of a command. -/
def Form.take (arg : String) : Form → Except Refusal Form
  | bare _ => .error .unknownArgument
  | withArgument f => .ok (.bare (f arg))

/-- Whether a name is one of a command, that of the help text included. -/
def isCommand (name : String) : Bool :=
  name == "help" || (form? name).isSome

/-- Reads what follows the name of a command. After the separator, every word is an argument. -/
def readCommand (form : Form) (separated : Bool) : List String → Except Refusal Command
  | [] =>
    match form with
    | .bare command => .ok command
    | .withArgument _ => .error .missingRequiredArgument
  | arg :: rest =>
    if separated then do readCommand (← form.take arg) true rest
    else
      match Word.read arg with
      | .plain text => do readCommand (← form.take text) false rest
      | .separator => readCommand form true rest
      | .inquiry .help => .error .help
      | .surplus .help => .error .tooManyValues
      | _ => .error .unknownArgument

/-- What follows the command for the help text: the name of another command, or nothing. -/
def readHelp : List String → Refusal
  | [] => .help
  | name :: rest => if isCommand name && rest.isEmpty then .help else .invalidSubcommand

/-- Reads the rest of the command line, with the option that has been named last. -/
def readWords (i : Invocation) (pending : Option Pending) :
    List String → Except Refusal Invocation
  | [] => i.settle pending
  | arg :: rest =>
    match Word.read arg with
    | .setting setting attached => do
      let i ← i.settle pending
      match attached with
      | some value => readWords (← i.set setting value) none rest
      | none => readWords i (some ⟨setting, none⟩) rest
    | .inquiry inquiry => do
      let _ ← i.settle pending
      .error (.ofInquiry inquiry)
    | .surplus _ => .error .tooManyValues
    | .stranger => .error .unknownArgument
    | .separator =>
      match rest with
      | [] => i.settle pending
      | next :: _ => .error (if isCommand next then .unknownArgument else .invalidSubcommand)
    | .plain text =>
      match pending with
      | some ⟨setting, none⟩ => readWords i (some ⟨setting, some text⟩) rest
      | _ =>
        if text == "help" then .error (readHelp rest)
        else
          match form? text with
          | none => .error .invalidSubcommand
          | some form => do
            let command ← readCommand form false rest
            let i ← i.settle pending
            .ok { i with command := some command }

/-- Reads the arguments of the program. -/
def read (args : List String) : Except Refusal Invocation :=
  readWords {} none args

end FeedClient.Invocation
