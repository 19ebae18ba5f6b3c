import Mathlib.Logic.Function.Basic
import Innit.Keyword
import Innit.System

/-!
# The subcontext process

`subcontext.cpp` and `proto_utils.h`: init sends the commands of vendor scripts to a child, one message each, and reads one reply
for each. Every `Fork` makes a socket pair of its own; a packet channel keeps messages whole and in order. The code that protobuf
generates is a parameter. The `request` of a packet and the logs of `SubcontextSystem` are proof data: no function looks at them.
-/

namespace Innit

/-- `SubcontextCommand`, by its `command_case`. -/
inductive SubcontextCommand where
  | notSet
  | executeCommand (args : List String)
  | expandArgsCommand (args : List String)
deriving DecidableEq, Repr

/-- The `reply_case` of `SubcontextReply`. -/
inductive SubcontextReplyCase where
  | notSet
  | success
  | failure (errorString : String) (errorErrno : Nat)
  | expandArgsReply (expandedArgs : List String)
deriving DecidableEq, Repr

/-- `SubcontextReply`. -/
structure SubcontextReply where
  reply : SubcontextReplyCase := .notSet
  triggerShutdown : Option String := none
deriving DecidableEq, Repr

/-- `SerializeToString` and `ParseFromString` of the two messages: parsing inverts serialising. -/
structure SubcontextCodec where
  serializeCommand : SubcontextCommand → String
  parseCommand : String → Option SubcontextCommand
  serializeReply : SubcontextReply → String
  parseReply : String → Option SubcontextReply
  parseCommand_serialize : ∀ c, parseCommand (serializeCommand c) = some c
  parseReply_serialize : ∀ r, parseReply (serializeReply r) = some r

/-! ## Messages -/

/-- `kBufferSize`. -/
def kBufferSize : Nat := 4096

/-- `EPIPE`. -/
def epipe : Nat := 32

/-- What the system answers to a `SendMessage`: whether the message could be serialised, and the errno of `send`. -/
structure SendAnswer where
  serialized : Bool := true
  errno : Option Nat := none
deriving DecidableEq, Repr

/-- `SendMessage`. -/
def sendMessage (answer : SendAnswer) (message : String) : Result Unit :=
  if !answer.serialized then .error (Error "Unable to serialize message")
  else if message.length > kBufferSize then .error (Error "Serialized message too long to send")
  else match answer.errno with
    | some errno => .error (ErrnoError errno "send() failed to send message contents")
    | none => .ok ()

/-- `ReadMessage`, for what `recv` gives: an errno, or a packet cut at the size of the buffer. A closed channel gives no bytes. -/
def readMessage (received : Except Nat String) : Result String :=
  match received with
  | .error errno => .error (ErrnoError errno "")
  | .ok message => if message = "" then .error (Error "") else .ok (String.ofList (message.toList.take kBufferSize))

/-! ## The child -/

/-- What a command meets in the child: what its builtin function returns, and what properties and vendor version it reads. -/
structure ChildEnv where
  result : Result Unit := .ok ()
  vendorApi : Nat := 30
  getProperty : String → String := fun _ => ""

namespace SubcontextProcess

/-- `RunCommand`. -/
def runCommand (E : ChildEnv) (args : List String) (reply : SubcontextReply) : SubcontextReply :=
  let result : Result Unit := match builtinFunctionMap.find args with
    | .error e => .error (e.within "Cannot find command: ")
    | .ok _ => E.result
  match result with
  | .ok () => { reply with reply := .success }
  | .error e => { reply with reply := .failure e.message e.code }

/-- `add_expanded_args`: the reply becomes one of expanded arguments. -/
def addExpandedArg (expandedArg : String) (reply : SubcontextReply) : SubcontextReply :=
  match reply.reply with
  | .expandArgsReply expandedArgs => { reply with reply := .expandArgsReply (expandedArgs ++ [expandedArg]) }
  | _ => { reply with reply := .expandArgsReply [expandedArg] }

/-- `ExpandArgs`. -/
def expandArgs (E : ChildEnv) : List String → SubcontextReply → SubcontextReply
  | [], reply => reply
  | arg :: args, reply => match expandProps E.vendorApi E.getProperty arg with
    | .error e => { reply with reply := .failure e.message 0 }
    | .ok expandedArg => expandArgs E args (addExpandedArg expandedArg reply)

/-- The reply of `MainLoop` to a command; a command that is none of the two is fatal. -/
def serve (E : ChildEnv) : SubcontextCommand → Option SubcontextReply
  | .executeCommand args => some (runCommand E args {})
  | .expandArgsCommand args => some (expandArgs E args {})
  | .notSet => none

/-- The shutdown command of the child goes with the reply, and is cleared. -/
def withShutdown (shutdownCommand : String) (reply : SubcontextReply) : SubcontextReply :=
  if shutdownCommand ≠ "" then { reply with triggerShutdown := some shutdownCommand } else reply

end SubcontextProcess

/-! ## What init makes of a reply -/

/-- The end of `Subcontext::Execute`. -/
def SubcontextReply.executed (reply : SubcontextReply) : Result Unit :=
  match reply.reply with
  | .failure errorString errorErrno => .error ⟨errorString, errorErrno⟩
  | .success => .ok ()
  | .notSet => .error (Error "Unexpected message type from subcontext: 0")
  | .expandArgsReply _ => .error (Error "Unexpected message type from subcontext: 3")

/-- The end of `Subcontext::ExpandArgs`. -/
def SubcontextReply.expanded (reply : SubcontextReply) : Result (List String) :=
  match reply.reply with
  | .failure errorString errorErrno => .error ⟨errorString, errorErrno⟩
  | .expandArgsReply expandedArgs => .ok expandedArgs
  | .notSet => .error (Error "Unexpected message type from subcontext: 0")
  | .success => .error (Error "Unexpected message type from subcontext: 1")

/-! ## The two processes -/

/-- A packet on a channel. -/
structure Packet where
  request : Nat
  message : String
deriving DecidableEq, Repr

/-- Where the child is in `MainLoop`. -/
inductive ChildPhase where
  | polling
  | serving (request : Nat) (command : SubcontextCommand)
  | replying (request : Nat) (reply : SubcontextReply)
  | exited
deriving DecidableEq, Repr

/-- What a `Fork` makes: a socket pair, and the child at its other end with its `shutdown_command`. -/
structure Fork where
  toChild : List Packet := []
  toInit : List Packet := []
  phase : ChildPhase := .polling
  shutdownCommand : String := ""
deriving DecidableEq, Repr

/-- Where init is in `TransmitMessage`. -/
inductive TransmitPhase where
  | idle
  | receiving (request : Nat)
deriving DecidableEq, Repr

/-- The subcontext and its children. Init has the channel of the current fork; the ends of the earlier ones it has closed. The
logs hold the requests so far, what `TransmitMessage` returned for each, the shutdown commands it forwarded, the replies the
children made, and the shutdown commands their builtins raised. -/
structure SubcontextSystem where
  forks : Nat → Fork := fun _ => {}
  current : Nat := 0
  phase : TransmitPhase := .idle
  terminatedByShutdown : Bool := false
  requests : List SubcontextCommand := []
  results : List (Result SubcontextReply) := []
  forwarded : List (Nat × String) := []
  replies : List (Nat × SubcontextReply) := []
  raised : List (Nat × String) := []

/-- What can happen: `TransmitMessage` sends, and receives; init reaps the child, or terminates it; a child reads, runs a builtin
that triggers a shutdown, makes its reply, sends it, or dies. -/
inductive SubcontextStep where
  | send (command : SubcontextCommand) (answer : SendAnswer) (errno : Nat)
  | receive (errno : Option Nat) (parses : Bool)
  | childReap
  | terminate
  | childRead (fork : Nat) (errno : Option Nat) (parses : Bool)
  | childRaise (fork : Nat) (command : String)
  | childServe (fork : Nat) (env : ChildEnv)
  | childSend (fork : Nat) (answer : SendAnswer)
  | childExit (fork : Nat)

namespace SubcontextSystem

/-- Change one fork. -/
def setFork (i : Nat) (f : Fork) (s : SubcontextSystem) : SubcontextSystem :=
  { s with forks := Function.update s.forks i f }

/-- `Restart`: the child is killed, which it notices later, and a new one forked. -/
def restart (s : SubcontextSystem) : SubcontextSystem :=
  { s with forks := Function.update s.forks (s.current + 1) {}, current := s.current + 1 }

/-- `TransmitMessage` returns. -/
def returns (r : Result SubcontextReply) (s : SubcontextSystem) : SubcontextSystem :=
  { s with phase := .idle, results := s.results ++ [r] }

/-- The first half of `TransmitMessage`. Nobody reads what is sent to a child that has exited. -/
def transmitSend (codec : SubcontextCodec) (command : SubcontextCommand) (answer : SendAnswer) (errno : Nat)
    (s : SubcontextSystem) : SubcontextSystem :=
  let request := s.requests.length
  let s₁ := { s with requests := s.requests ++ [command] }
  let fork := s.forks s.current
  let answer := if fork.phase = .exited then { answer with errno := some epipe } else answer
  match sendMessage answer (codec.serializeCommand command) with
  | .error _ => s₁.restart.returns (.error (ErrnoError errno "Failed to send message to subcontext"))
  | .ok () =>
    { s₁.setFork s.current { fork with toChild := fork.toChild ++ [⟨request, codec.serializeCommand command⟩] } with
      phase := .receiving request }

/-- What `TransmitMessage` does with what `recv` gives. -/
def transmitReceived (codec : SubcontextCodec) (request : Nat) (received : Except Nat String) (parses : Bool)
    (s : SubcontextSystem) : SubcontextSystem :=
  match readMessage received with
  | .error e => s.restart.returns (.error (e.within "Failed to receive result from subcontext: "))
  | .ok message => match if parses then codec.parseReply message else none with
    | none => s.restart.returns (.error (Error "Unable to parse message from subcontext"))
    | some reply =>
      { s with forwarded := s.forwarded ++ (reply.triggerShutdown.map (request, ·)).toList }.returns (.ok reply)

/-- The second half of `TransmitMessage`: it waits for a packet, or for the child to close its end. -/
def transmitReceive (codec : SubcontextCodec) (request : Nat) (errno : Option Nat) (parses : Bool) (s : SubcontextSystem) :
    SubcontextSystem :=
  let fork := s.forks s.current
  match errno, fork.toInit with
  | some errno, _ => s.transmitReceived codec request (.error errno) parses
  | none, p :: rest => (s.setFork s.current { fork with toInit := rest }).transmitReceived codec request (.ok p.message) parses
  | none, [] => if fork.phase = .exited then s.transmitReceived codec request (.ok "") parses else s

/-- `SubcontextChildReap`, for the current child once it has exited. -/
def subcontextChildReap (s : SubcontextSystem) : SubcontextSystem :=
  if (s.forks s.current).phase = .exited && !s.terminatedByShutdown then s.restart else s

/-- The child reads a command. It exits on an error, and when init has closed the channel. -/
def childRead (codec : SubcontextCodec) (i : Nat) (errno : Option Nat) (parses : Bool) (s : SubcontextSystem) :
    SubcontextSystem :=
  let fork := s.forks i
  match errno, fork.toChild with
  | some _, _ => s.setFork i { fork with phase := .exited }
  | none, p :: rest => match readMessage (.ok p.message) with
    | .error _ => s.setFork i { fork with toChild := rest, phase := .exited }
    | .ok message => match if parses then codec.parseCommand message else none with
      | none => s.setFork i { fork with toChild := rest, phase := .exited }
      | some command => s.setFork i { fork with toChild := rest, phase := .serving p.request command }
  | none, [] => if i = s.current then s else s.setFork i { fork with phase := .exited }

/-- The child makes its reply. -/
def childServe (i request : Nat) (command : SubcontextCommand) (E : ChildEnv) (s : SubcontextSystem) : SubcontextSystem :=
  let fork := s.forks i
  match SubcontextProcess.serve E command with
  | none => s.setFork i { fork with phase := .exited }
  | some reply =>
    let reply := SubcontextProcess.withShutdown fork.shutdownCommand reply
    { s.setFork i { fork with phase := .replying request reply, shutdownCommand := "" } with
      replies := s.replies ++ [(request, reply)] }

/-- The child sends its reply, and exits if it cannot. -/
def childSend (codec : SubcontextCodec) (i request : Nat) (reply : SubcontextReply) (answer : SendAnswer)
    (s : SubcontextSystem) : SubcontextSystem :=
  let fork := s.forks i
  let answer := if i = s.current then answer else { answer with errno := some epipe }
  match sendMessage answer (codec.serializeReply reply) with
  | .error _ => s.setFork i { fork with phase := .exited }
  | .ok () =>
    s.setFork i { fork with phase := .polling, toInit := fork.toInit ++ [⟨request, codec.serializeReply reply⟩] }

/-- One step. A step that its process is not at does nothing. -/
def step (codec : SubcontextCodec) (s : SubcontextSystem) (e : SubcontextStep) : SubcontextSystem :=
  match e with
  | .send command answer errno => match s.phase with
    | .idle => s.transmitSend codec command answer errno
    | .receiving _ => s
  | .receive errno parses => match s.phase with
    | .idle => s
    | .receiving request => s.transmitReceive codec request errno parses
  | .childReap => match s.phase with
    | .idle => s.subcontextChildReap
    | .receiving _ => s
  | .terminate => { s with terminatedByShutdown := true }
  | .childRead i errno parses => match (s.forks i).phase with
    | .polling => s.childRead codec i errno parses
    | _ => s
  | .childRaise i command => match (s.forks i).phase with
    | .serving request _ =>
      { s.setFork i { s.forks i with shutdownCommand := command } with raised := s.raised ++ [(request, command)] }
    | _ => s
  | .childServe i E => match (s.forks i).phase with
    | .serving request command => s.childServe i request command E
    | _ => s
  | .childSend i answer => match (s.forks i).phase with
    | .replying request reply => s.childSend codec i request reply answer
    | _ => s
  | .childExit i => s.setFork i { s.forks i with phase := .exited }

/-- A run, from the first `Fork`. -/
def run (codec : SubcontextCodec) (steps : List SubcontextStep) : SubcontextSystem := steps.foldl (step codec) {}

end SubcontextSystem

end Innit
