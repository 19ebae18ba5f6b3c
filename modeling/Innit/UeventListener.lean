import Innit.Uevent

/-!
# The uevent listener

The listener reads uevents from a socket of the kernel. `RegenerateUevents` walks over `/sys/devices` and writes to the `uevent` file of
every directory, which makes the kernel send the uevent of the device again; the socket is drained after each of these pokes. What
comes in while the socket is drained counts as having come in with the poke.
-/

namespace Innit

open Lib

/-- `ListenerAction`. -/
inductive ListenerAction where
  | stop
  | «continue»
deriving DecidableEq, Repr

/-- A datagram of the socket: one whose sender is not the kernel makes the receiving call fail. -/
inductive Datagram where
  | foreign
  | message (text : List Char)
deriving DecidableEq, Repr

/-- `ReadUevent` on the next datagram, which the receiving call puts at the start of a buffer and cuts at its end. -/
def Datagram.readUevent : Datagram → ReadUeventResult × Uevent
  | foreign => (.failed, {})
  | message text =>
    let received := text.take ueventMsgLen
    let msg := received ++ List.replicate (ueventMsgLen + 2 - received.length) CString.nul
    match Innit.readUevent received.length {} msg with
    | some (r, _, _) => r
    | none => (.failed, {})

/-- A callback of the listener, with what it keeps. -/
abbrev ListenerCallback (σ : Type) := Uevent → σ → ListenerAction × σ

/-- The listener: the datagrams that wait in its socket, the oldest first, the `uevent` files written to so far, and what the callback
keeps. -/
structure Listening (σ : Type) where
  socket : List Datagram := []
  pokes : List String := []
  state : σ
deriving DecidableEq, Repr

section Listener

variable {σ : Type} (callback : ListenerCallback σ)

/-- The loop that drains the socket: it ends when reading fails, as it does when nothing is left. -/
def drain : List Datagram → σ → ListenerAction × List Datagram × σ
  | [], s => (.continue, [], s)
  | d :: socket, s =>
    match d.readUevent with
    | (.failed, _) => (.continue, socket, s)
    | (.invalid, _) => drain socket s
    | (.success, uevent) =>
      match callback uevent s with
      | (.stop, s) => (.stop, socket, s)
      | (.continue, s) => drain socket s

/-- An entry of a directory of `/sys` as `readdir` gives it: whether it is a directory, whether it can be opened, whether the `uevent`
file in it can be opened for writing, and its entries. -/
inductive SysEntry where
  | entry (name : String) (isDir opens uevent : Bool) (entries : List SysEntry)

/-- What the kernel sends after a poke, given all pokes so far, and what else comes in. -/
abbrev Arrivals := List String → List Datagram

/-- Write to the `uevent` file of a directory, and drain the socket. -/
def poke (arrivals : Arrivals) (path : String) (l : Listening σ) : ListenerAction × Listening σ :=
  let pokes := l.pokes ++ [path]
  let r := drain callback (l.socket ++ arrivals pokes) l.state
  (r.1, { socket := r.2.1, pokes := pokes, state := r.2.2 })

mutual

/-- `RegenerateUeventsForDir`. -/
def regenerateUeventsForDir (arrivals : Arrivals) (path : String) (uevent : Bool) (entries : List SysEntry) (l : Listening σ) :
    ListenerAction × Listening σ :=
  if uevent then
    match poke callback arrivals path l with
    | (.stop, l) => (.stop, l)
    | (.continue, l) => regenerateUeventsForEntries arrivals path entries l
  else regenerateUeventsForEntries arrivals path entries l

/-- Its loop over the entries of the directory. -/
def regenerateUeventsForEntries (arrivals : Arrivals) (path : String) : List SysEntry → Listening σ → ListenerAction × Listening σ
  | [], l => (.continue, l)
  | .entry name isDir opens uevent entries :: more, l =>
    if !isDir ∨ name.toList.head? = some '.' ∨ !opens then regenerateUeventsForEntries arrivals path more l
    else match regenerateUeventsForDir arrivals (path ++ "/" ++ name) uevent entries l with
      | (.stop, l) => (.stop, l)
      | (.continue, l) => regenerateUeventsForEntries arrivals path more l

end

/-- `RegenerateUeventsForPath`, with what stands at the path. -/
def regenerateUeventsForPath (arrivals : Arrivals) (path : String) (dir : Option (Bool × List SysEntry)) (l : Listening σ) :
    ListenerAction × Listening σ :=
  match dir with
  | none => (.continue, l)
  | some (uevent, entries) => regenerateUeventsForDir callback arrivals path uevent entries l

/-- `RegenerateUevents`. -/
def regenerateUevents (arrivals : Arrivals) (devices : Option (Bool × List SysEntry)) (l : Listening σ) : Listening σ :=
  (regenerateUeventsForPath callback arrivals "/sys/devices" devices l).2

/-- What `poll` answers, and the milliseconds since the start when the round began. -/
inductive PollAnswer where
  | timeout
  | failed
  | ready (arrived : List Datagram)
deriving DecidableEq, Repr

/-- `Poll`, as far as the answers go: whether it has returned. -/
def poll (relativeTimeout : Option Nat) : List (Nat × PollAnswer) → Listening σ → Bool × Listening σ
  | [], l => (false, l)
  | (elapsed, answer) :: more, l =>
    if relativeTimeout.any (· < elapsed) then (true, l)
    else match answer with
      | .timeout => (true, l)
      | .failed => poll relativeTimeout more l
      | .ready arrived =>
        match drain callback (l.socket ++ arrived) l.state with
        | (.stop, socket, s) => (true, { l with socket := socket, state := s })
        | (.continue, socket, s) => poll relativeTimeout more { l with socket := socket, state := s }

end Listener

end Innit
