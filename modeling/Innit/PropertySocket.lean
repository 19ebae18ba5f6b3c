import Innit.Lib.Prog
import Innit.PropertyService
import Mathlib.Data.Nat.Digits.Defs

/-!
# The property socket

A process sets a property over a socket. The property service takes the bytes of the request as they come, for two seconds at most,
has `HandlePropertySet` act on it, and answers it where the protocol of the request has an answer.
-/

namespace Innit

open Lib

/-- What `poll` returns: data, nothing in time, `EINTR`, or another error. -/
inductive PollResult where
  | ready | timeout | interrupted | error
deriving DecidableEq, Repr

/-- The calls on the socket of the service, and on a connection. -/
inductive SocketCall where
  | accept4
  | getPeerCred (fd : Nat)
  | poll (fd timeoutMs : Nat)
  | recv (fd size : Nat)
  | getpeercon (fd : Nat)
  | send (fd : Nat) (result : PropResult)
  | close (fd : Nat)
deriving DecidableEq, Repr

/-- The answer to a call. That of `poll` comes with the nanoseconds that the steady clock says it took; that of `recv` is what the
connection has, and nothing for an error or its end. -/
abbrev SocketCall.Ans : SocketCall → Type
  | accept4 => Option Nat
  | getPeerCred _ => Option Ucred
  | poll _ _ => PollResult × Nat
  | recv _ _ => List UInt8
  | getpeercon _ => Option String
  | _ => Unit

/-- Programs of the property service; they do not fail. -/
abbrev SocketProg := Prog SocketCall SocketCall.Ans Empty

namespace SocketProg

/-- A call of the property service. -/
def lift (op : SocketCall) : SocketProg op.Ans := Prog.lift op

end SocketProg

open SocketProg

/-- `PROP_MSG_SETPROP` and `PROP_MSG_SETPROP2`. -/
def propMsgSetprop : Nat := 1
def propMsgSetprop2 : Nat := 0x00020001

/-- `PROP_NAME_MAX`. -/
def propNameMax : Nat := 32

/-- `kDefaultSocketTimeout`, in milliseconds. -/
def kDefaultSocketTimeout : Nat := 2000

/-- Bytes as a text. -/
def textOf (bytes : List UInt8) : String := String.ofList (bytes.map fun b => Char.ofNat b.toNat)

/-- The number that four bytes stand for, lowest first. -/
def uint32Of (bytes : List UInt8) : Nat := Nat.ofDigits 256 (bytes.map UInt8.toNat)

/-- `duration_cast<milliseconds>` of nanoseconds: what is over is cut off. -/
def millisOf (nanos : Nat) : Nat := nanos / 1000000

/-- The nanoseconds of milliseconds. -/
def nanosOf (millis : Nat) : Nat := millis * 1000000

/-- The loop of `PollIn`, which goes round again only when it is interrupted, with less time than before. -/
def pollInLoop (fd : Nat) : Nat → Nat → SocketProg (Bool × Nat)
  | 0, timeoutMs => pure (false, timeoutMs)
  | rounds + 1, timeoutMs => do
    if timeoutMs = 0 then pure (false, 0)
    else
      let (nr, timeElapsed) ← lift (.poll fd timeoutMs)
      let timeoutMs := timeoutMs - millisOf timeElapsed
      match nr with
      | .ready => pure (true, timeoutMs)
      | .timeout => pure (false, timeoutMs)
      | .error => pure (false, timeoutMs)
      | .interrupted => pollInLoop fd rounds (timeoutMs - 1)

/-- `PollIn`: whether there is data, and the time that is left. -/
def pollIn (fd timeoutMs : Nat) : SocketProg (Bool × Nat) := pollInLoop fd timeoutMs timeoutMs

/-- The loop of `RecvFully`, with the bytes so far; each round takes one byte at least. -/
def recvFullyLoop (fd : Nat) : Nat → Nat → List UInt8 → Nat → SocketProg (Option (List UInt8) × Nat)
  | 0, bytesLeft, data, timeoutMs => pure (if bytesLeft = 0 then some data else none, timeoutMs)
  | rounds + 1, bytesLeft, data, timeoutMs => do
    if timeoutMs = 0 ∨ bytesLeft = 0 then pure (if bytesLeft = 0 then some data else none, timeoutMs)
    else
      let (ready, timeoutMs) ← pollIn fd timeoutMs
      if !ready then pure (none, timeoutMs)
      else
        let available ← lift (.recv fd bytesLeft)
        let bytes := available.take bytesLeft
        if bytes = [] then pure (none, timeoutMs)
        else recvFullyLoop fd rounds (bytesLeft - bytes.length) (data ++ bytes) timeoutMs

/-- `RecvFully` and `RecvChars`: the bytes if all have come, and the time that is left. -/
def recvFully (fd size timeoutMs : Nat) : SocketProg (Option (List UInt8) × Nat) := recvFullyLoop fd size size [] timeoutMs

/-- `RecvUint32`. -/
def recvUint32 (fd timeoutMs : Nat) : SocketProg (Option Nat × Nat) := do
  let (bytes, timeoutMs) ← recvFully fd 4 timeoutMs
  pure (bytes.map uint32Of, timeoutMs)

/-- `RecvString`. -/
def recvString (fd timeoutMs : Nat) : SocketProg (Option String × Nat) := do
  let (len, timeoutMs) ← recvUint32 fd timeoutMs
  match len with
  | none => pure (none, timeoutMs)
  | some 0 => pure (some "", timeoutMs)
  | some len =>
    if len > 0xffff then pure (none, timeoutMs)
    else
      let (chars, timeoutMs) ← recvFully fd len timeoutMs
      pure (chars.map textOf, timeoutMs)

/-- `SendUint32`, on the socket that a connection still has. -/
def sendUint32 (socket : Option Nat) (value : PropResult) : SocketProg Unit :=
  match socket with
  | none => pure ()
  | some fd => lift (.send fd value)

/-- What a connection leaves: the socket it still has, and the property service. -/
abbrev Served := Option Nat × PropertyService

namespace PropertyService

/-- `HandlePropertySet` takes the socket of the connection away, to go with a control message. -/
def releases (E : PropertyEnv) (name value sourceContext : String) (s : PropertyService) : Bool :=
  (checkPermissions E name value sourceContext).1 = .success && startsWith name "ctl." && s.acceptMessages && decide (E.vendorApi > apiQ)

/-- `handle_property_set_fd`, of `PROP_MSG_SETPROP`. The last byte of each buffer is overwritten. -/
def handleSetprop (E : PropertyEnv) (fd : Nat) (cr : Ucred) (timeoutMs : Nat) (s : PropertyService) : SocketProg Served := do
  let (propName, timeoutMs) ← recvFully fd propNameMax timeoutMs
  match propName with
  | none => pure (some fd, s)
  | some propName =>
    let (propValue, _) ← recvFully fd propValueMax timeoutMs
    match propValue with
    | none => pure (some fd, s)
    | some propValue =>
      let name := cStr (textOf (propName.take (propNameMax - 1)))
      let value := cStr (textOf (propValue.take (propValueMax - 1)))
      let sourceContext ← lift (.getpeercon fd)
      match sourceContext with
      | none => pure (some fd, s)
      | some sourceContext => pure (some fd, (s.handlePropertySet E name value sourceContext cr none).2.2)

/-- `handle_property_set_fd`, of `PROP_MSG_SETPROP2`. -/
def handleSetprop2 (E : PropertyEnv) (fd : Nat) (cr : Ucred) (timeoutMs : Nat) (s : PropertyService) : SocketProg Served := do
  let (name, timeoutMs) ← recvString fd timeoutMs
  match name with
  | none =>
    sendUint32 (some fd) .errorReadData
    pure (some fd, s)
  | some name =>
    let (value, _) ← recvString fd timeoutMs
    match value with
    | none =>
      sendUint32 (some fd) .errorReadData
      pure (some fd, s)
    | some value =>
      let sourceContext ← lift (.getpeercon fd)
      match sourceContext with
      | none =>
        sendUint32 (some fd) .errorPermissionDenied
        pure (some fd, s)
      | some sourceContext =>
        let (result, _, s') := s.handlePropertySet E name value sourceContext cr (some fd)
        let socket := if s.releases E name value sourceContext then none else some fd
        sendUint32 socket result
        pure (socket, s')

/-- `handle_property_set_fd`, with a connection. -/
def handleConnection (E : PropertyEnv) (fd : Nat) (cr : Ucred) (s : PropertyService) : SocketProg Served := do
  let (cmd, timeoutMs) ← recvUint32 fd kDefaultSocketTimeout
  match cmd with
  | none =>
    sendUint32 (some fd) .errorReadCmd
    pure (some fd, s)
  | some cmd =>
    if cmd = propMsgSetprop then s.handleSetprop E fd cr timeoutMs
    else if cmd = propMsgSetprop2 then s.handleSetprop2 E fd cr timeoutMs
    else
      sendUint32 (some fd) .errorInvalidCmd
      pure (some fd, s)

/-- `handle_property_set_fd`. A connection closes the socket that it still has when it goes away. -/
def handlePropertySetFd (E : PropertyEnv) (s : PropertyService) : SocketProg PropertyService := do
  let fd ← lift .accept4
  match fd with
  | none => pure s
  | some fd =>
    let cr ← lift (.getPeerCred fd)
    match cr with
    | none =>
      let _ ← lift (.close fd)
      pure s
    | some cr =>
      let (socket, s) ← s.handleConnection E fd cr
      match socket with
      | none => pure s
      | some fd =>
        let _ ← lift (.close fd)
        pure s

end PropertyService

end Innit
