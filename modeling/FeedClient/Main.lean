import FeedClient.Configuration.Location
import FeedClient.Http.Transfer
import FeedClient.Invocation.Help
import FeedClient.Program
import FeedClient.Prompt.Keys
import Std.Async.DNS
import Std.Async.TCP
import Std.Async.Timer
import Std.Time.Zoned

/-!
# The command line

Here the dialogue of the program is carried out: requests go over the network, prompts to the
terminal, and the rest to the standard output. Nothing is decided here.
-/

namespace FeedClient.CommandLine

open Std.Async (Async)
open Program (Question Answer Stage)

/-- What the program is connected to. -/
structure Connection where
  /-- In milliseconds. -/
  timeout : Nat
  /-- The keys that have been pressed and not been used. -/
  keys : IO.Ref (List Key)

/-- Receives until the connection ends. -/
partial def receiveAll (socket : Std.Async.TCP.Socket.Client) (received : ByteArray) :
    Async ByteArray := do
  match ← socket.recv? 65536 with
  | some bytes => receiveAll socket (received ++ bytes)
  | none => return received

/-- Sends a request over a connection of its own. -/
def exchange (request : Http.Request) : Async (Option Http.Response) := do
  let (host, number) := Http.service request.url
  let addresses : Array Std.Net.IPAddr ← Std.Async.DNS.getAddrInfo host "" (some .ipv4)
  match addresses.toList.head? with
  | some (.v4 address) =>
    let socket ← Std.Async.TCP.Socket.Client.mk
    socket.connect (.v4 ⟨address, UInt16.ofNat number⟩)
    socket.send ⟨request.bytes.toArray⟩
    let received ← receiveAll socket ByteArray.empty
    return Http.Response.read? received.toList
  | _ => return none

/-- Sends a request, and waits for the response as long as the timeout allows. Encrypted connections
are not to be had. -/
def send (c : Connection) (request : Http.Request) : IO (Option Http.Response) := do
  if request.url.secure then return none
  let wait : Async (Option Http.Response) := do
    Std.Async.sleep (Std.Time.Millisecond.Offset.ofNat c.timeout)
    return none
  try (Std.Async.Async.race (exchange request) wait).block
  catch _ => return none

/-- The keys that are left, or those of the next line. At the end of the input there are none. -/
def nextKeys (c : Connection) : IO (List Key) := do
  let keys ← c.keys.get
  if !keys.isEmpty then return keys
  return Key.ofChars (← (← IO.getStdin).getLine).toList

/-- Presses keys until a prompt is over. -/
partial def press {σ α : Type} (c : Connection) (step : σ → Key → Prompt.Pressed σ α) (prompt : σ) :
    IO (Prompted α) := do
  match ← nextKeys c with
  | [] => return .cancelled
  | key :: rest =>
    c.keys.set rest
    match step prompt key with
    | .more prompt => press c step prompt
    | .given a => return .given a
    | .cancelled => return .cancelled

/-- Shows a prompt and lets the user answer it, if there is a terminal. -/
def prompted {σ α : Type} (c : Connection) (text : String)
    (step : σ → Key → Prompt.Pressed σ α) (prompt : σ) : IO (Prompted α) := do
  if !(← (← IO.getStdin).isTty) then return .unavailable
  IO.eprint text
  press c step prompt

/-- Answers a question of the program. -/
def answer (c : Connection) : (q : Question) → IO (Answer q)
  | .send request => send c request
  | .print text => do
    IO.print text
    (← IO.getStdout).flush
  | .choose message count option =>
    let options := (List.finRange count).map fun i => "  " ++ option i ++ "\n"
    prompted c (message ++ "\n" ++ String.join options) Prompt.Choice.press
      (Prompt.Choice.start option)
  | .write message initial =>
    prompted c (message ++ " " ++ initial) Prompt.Line.press ⟨initial.toList⟩

/-- Goes through the rounds of a session. -/
partial def finish (c : Connection) : Stage → IO Program.Exit
  | .ended exit => return exit
  | .session client => do finish c (← (Program.round client).run (answer c))

/-- The text of the configuration file, if there is one. -/
def configuration : IO (Option String) := do
  let directories : Configuration.Directories :=
    ⟨← IO.getEnv "XDG_CONFIG_HOME", ← IO.getEnv "HOME"⟩
  match Configuration.filePath? directories with
  | none => return none
  | some path =>
    try return some (← IO.FS.readFile path)
    catch _ => return none

/-- How long a response may take, in milliseconds. -/
def timeout (i : Invocation) (file : Option String) : Nat :=
  match Preferences.load file with
  | .ok preferences =>
    ((i.timeout.or preferences.timeout).getD Configuration.defaultTimeout).toNat * 1000
  | .error _ => 0

/-- The time zone that the system is in; where it cannot be told, the one of Coordinated Universal
Time. -/
def localZone : IO Zone := do
  try
    let rules ← Std.Time.Database.defaultGetLocalZoneRules
    return ⟨fun millis =>
      let time := Std.Time.Timestamp.ofMillisecondsSinceUnixEpoch ⟨millis⟩
      (rules.findLocalTimeTypeForTimestamp time).gmtOffset.second.val * 1000⟩
  catch _ => return .utc

/-- Runs the program with its arguments. -/
def run (args : List String) : IO UInt32 := do
  match Invocation.read args with
  | .error refusal =>
    IO.print refusal.output
    if refusal.exitCode ≠ 0 then IO.eprintln ("error: " ++ refusal.message)
    return refusal.exitCode.toUInt32
  | .ok invocation =>
    let env : Environment := ⟨← IO.getEnv "STW_SERVER", ← IO.getEnv "STW_USER"⟩
    let invocation := invocation.within env
    let file ← configuration
    let zone ← localZone
    let c : Connection := ⟨timeout invocation file, ← IO.mkRef []⟩
    let exit ← finish c (← (Program.start invocation file zone).run (answer c))
    match exit.errorLine? with
    | some line => IO.eprintln line
    | none => pure ()
    return exit.code.toUInt32

end FeedClient.CommandLine

/-- Runs the program. -/
def main (args : List String) : IO UInt32 :=
  FeedClient.CommandLine.run args
