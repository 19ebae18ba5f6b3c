import Innit.TokenizerBuffer

/-!
# Uevents

A message of the kernel is entries `KEY=value`, each ended by a NUL. `ParseEvent` walks over it by a pointer, from NUL to NUL, up to an
empty entry; `ReadUevent` writes two NULs behind the message before. A pointer is an index of the buffer.
-/

namespace Innit

open Lib

/-- `UEVENT_MSG_LEN`. -/
def ueventMsgLen : Nat := 8192

/-- `Uevent`, as `ParseEvent` leaves it at its start. -/
structure Uevent where
  action : String := ""
  path : String := ""
  subsystem : String := ""
  firmware : String := ""
  partitionName : String := ""
  deviceName : String := ""
  modalias : String := ""
  partitionNum : Int := -1
  major : Int := -1
  minor : Int := -1
deriving DecidableEq, Repr

/-- What `strtol` gives for a number, cut to an `int`. -/
def intOfNumber (n : Int) : Int := (max (-(2 ^ 63)) (min n (2 ^ 63 - 1))).bmod (2 ^ 32)

/-- `atoi`. -/
def atoi (s : String) : Int := intOfNumber (strtoNumeral 10 s).value

/-- The digits at a pointer. -/
def numberAt (p : Nat) : Accessing Char Nat := do
  let (_, n) ← .scanWhile (fun c => digitValue c < 10) (fun n c => n * 10 + digitValue c) p 0
  pure n

/-- `atoi` as it runs: blanks, a sign, digits. -/
def atoiAt (p : Nat) : Accessing Char Int := do
  let (p, _) ← .scanWhile isSpace (fun _ _ => ()) p ()
  match ← .read p with
  | '-' => do
    let n ← numberAt (p + 1)
    pure (intOfNumber (-n))
  | '+' => do
    let n ← numberAt (p + 1)
    pure (intOfNumber n)
  | _ => do
    let n ← numberAt p
    pure (intOfNumber n)

/-- The keys that `ParseEvent` knows. -/
inductive EventKey where
  | action
  | devpath
  | subsystem
  | firmware
  | major
  | minor
  | partn
  | partname
  | devname
  | modalias
deriving DecidableEq, Repr

namespace EventKey

/-- The text of a key, with its `=`. -/
def text : EventKey → String
  | action => "ACTION="
  | devpath => "DEVPATH="
  | subsystem => "SUBSYSTEM="
  | firmware => "FIRMWARE="
  | major => "MAJOR="
  | minor => "MINOR="
  | partn => "PARTN="
  | partname => "PARTNAME="
  | devname => "DEVNAME="
  | modalias => "MODALIAS="

/-- The keys in the order they are tried in. -/
def all : List EventKey := [action, devpath, subsystem, firmware, major, minor, partn, partname, devname, modalias]

/-- The chain of `strncmp`: the first key that stands at a pointer. -/
def findAt (msg : Nat) : List EventKey → Accessing Char (Option EventKey)
  | [] => pure none
  | key :: keys => do
    if ← .standsAt msg key.text.toList then pure (some key) else findAt msg keys

/-- What is done for a key, with the pointer behind it. -/
def store (key : EventKey) (msg : Nat) (uevent : Uevent) : Accessing Char Uevent :=
  match key with
  | action => do return { uevent with action := String.ofList (← readString msg) }
  | devpath => do return { uevent with path := String.ofList (← readString msg) }
  | subsystem => do return { uevent with subsystem := String.ofList (← readString msg) }
  | firmware => do return { uevent with firmware := String.ofList (← readString msg) }
  | major => do return { uevent with major := ← atoiAt msg }
  | minor => do return { uevent with minor := ← atoiAt msg }
  | partn => do return { uevent with partitionNum := ← atoiAt msg }
  | partname => do return { uevent with partitionName := String.ofList (← readString msg) }
  | devname => do return { uevent with deviceName := String.ofList (← readString msg) }
  | modalias => do return { uevent with modalias := String.ofList (← readString msg) }

end EventKey

/-- The entry at a pointer: its key, if it has one, and what is done for it; the pointer is moved behind the key. -/
def readEntry (msg : Nat) (uevent : Uevent) : Accessing Char (Nat × Uevent) := do
  match ← EventKey.findAt msg EventKey.all with
  | none => pure (msg, uevent)
  | some key => do
    let msg := msg + key.text.length
    let uevent ← key.store msg uevent
    pure (msg, uevent)

/-- A round of the loop of `ParseEvent`, which ends by advancing to after the next NUL. -/
def eventRound (k : Nat × Uevent) : Accessing Char ((Nat × Uevent) ⊕ Uevent) := do
  if (← .read k.1) = CString.nul then pure (.inr k.2)
  else do
    let (msg, uevent) ← readEntry k.1 k.2
    let (last, _) ← .scanWhile (fun c => decide (c ≠ CString.nul)) (fun _ _ => ()) msg ()
    pure (.inl (last + 1, uevent))

/-- `ParseEvent`. -/
def parseEvent : Accessing Char Uevent := do
  let n ← .size
  .loop eventRound (n + 1) (0, {})

/-- `ReadUeventResult`. -/
inductive ReadUeventResult where
  | success
  | failed
  | invalid
deriving DecidableEq, Repr

/-- `ReadUevent`, with the answer `n` of the receiving call, which has filled the buffer. -/
def readUevent (n : Int) (uevent : Uevent) : Accessing Char (ReadUeventResult × Uevent) :=
  if n ≤ 0 then pure (.failed, uevent)
  else if n ≥ ueventMsgLen then pure (.invalid, uevent)
  else do
    .write n.toNat CString.nul
    .write (n.toNat + 1) CString.nul
    let uevent ← parseEvent
    pure (.success, uevent)

end Innit
