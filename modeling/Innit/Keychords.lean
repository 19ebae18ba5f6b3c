import Mathlib.Data.List.Sort
import Innit.Text

/-!
# Key chords

The keys that are down are bits of a mask of 32-bit words, which grows and shrinks with the devices that are opened. A read of a
bit past its words is undefined; here it gives none, and so does all that rests on it. What the kernel answers about a device is
up to each step. Which events a device is told to keep to itself (`EVIOCSMASK`) only matters for the events that arrive.
-/

namespace Innit

/-- `Keychords::Mask`. -/
structure Mask where
  bits : List (BitVec 32) := []
deriving DecidableEq, Repr

namespace Mask

/-- `Mask(bit)`: the words are counted as if a word held as many bits as it has bytes. -/
def ofSize (bit : Nat) : Mask := ⟨List.replicate ((bit + 4 - 1) / 4) 0⟩

/-- `SetBit`. -/
def setBit (m : Mask) (bit : Nat) (value : Bool) : Mask :=
  let idx := bit / 32
  if idx ≥ m.bits.length then m
  else if value then ⟨m.bits.modify idx (fun w => w ||| (1#32 <<< (bit % 32)))⟩
  else ⟨m.bits.modify idx (fun w => w &&& ~~~(1#32 <<< (bit % 32)))⟩

/-- `GetBit`. -/
def getBit (m : Mask) (bit : Nat) : Option Bool := m.bits[bit / 32]?.map (fun w => w &&& (1#32 <<< (bit % 32)) ≠ 0)

/-- `size`. -/
def size (m : Mask) : Nat := m.bits.length * 4 * 8

/-- `resize`: a mask only grows. -/
def resize (m : Mask) (bit : Nat) : Mask :=
  let idx := bit / 32
  if idx ≥ m.bits.length then ⟨m.bits ++ List.replicate (idx + 1 - m.bits.length) 0⟩ else m

/-- `operator bool`. -/
def isSet (m : Mask) : Bool := m.bits.any (· ≠ 0)

/-- `operator&`. -/
def and (m rval : Mask) : Mask := ⟨List.zipWith (· &&& ·) m.bits rval.bits⟩

/-- `std::vector::resize`. -/
def vectorResize (bits : List (BitVec 32)) (len : Nat) : List (BitVec 32) :=
  bits.take len ++ List.replicate (len - bits.length) 0

/-- `operator|=`: the mask takes the size of the other one. -/
def orAssign (m rval : Mask) : Mask := ⟨List.zipWith (· ||| ·) (vectorResize m.bits rval.bits.length) rval.bits⟩

/-- What a call that fills the mask with words leaves of it. -/
def filled (m : Mask) (words : List (BitVec 32)) : Mask := ⟨words.take m.bits.length ++ m.bits.drop words.length⟩

end Mask

/-- An entry of `entries_`. -/
structure KeychordEntry where
  keycodes : List Nat
  notified : Bool := false
deriving DecidableEq, Repr

/-- A run of `LambdaCheck`: the keys it saw, what it left of the entries, and the chords it called the handler for. -/
structure KeychordCheck where
  current : Mask
  entries : List KeychordEntry
  called : List (List Nat)
deriving DecidableEq, Repr

/-- `Keychords`: the entries in the order of their keycodes, the keys that are down, the devices that are open, and the runs of
`LambdaCheck` so far. -/
structure Keychords where
  entries : List KeychordEntry := []
  current : Mask := {}
  registration : List String := []
  checks : List KeychordCheck := []
deriving DecidableEq, Repr

/-- `entries_.try_emplace`: an entry that is there stays. -/
def tryEmplace (keycodes : List Nat) (entries : List KeychordEntry) : List KeychordEntry :=
  if keycodes ∈ entries.map (·.keycodes) then entries
  else entries.orderedInsert (fun a b => a.keycodes < b.keycodes) { keycodes }

/-- What `ioctl` answers, and the words it writes. -/
structure IoctlAnswer where
  res : Int
  words : List (BitVec 32) := []
deriving DecidableEq, Repr

/-- What the kernel and epoll say about a device that is opened. -/
structure DeviceAnswers where
  opened : Bool
  version : Int
  available : IoctlAnswer
  pressed : IoctlAnswer
  registered : Bool
deriving DecidableEq, Repr

/-- What a read of a device gives: an `input_event`, if it is whole. -/
structure InputEvent where
  type : Nat
  code : Nat
  value : Int
deriving DecidableEq, Repr

/-- `EV_KEY`. -/
def evKey : Nat := 1

namespace Keychords

/-- The loop over the codes of a chord: whether all are down. -/
def allFound (current : Mask) : List Nat → Option Bool
  | [] => some true
  | code :: keycodes => match current.getBit code with
    | none => none
    | some false => some false
    | some true => allFound current keycodes

/-- One round of the loop of `LambdaCheck`: the entry after it, and whether the handler is called. -/
def checkEntry (found : Bool) (e : KeychordEntry) : KeychordEntry × Bool :=
  if !found then ({ e with notified := false }, false)
  else if e.notified then (e, false)
  else ({ e with notified := true }, true)

/-- The loop of `LambdaCheck`: the entries after it, and the chords the handler is called for. -/
def checkEntries (current : Mask) : List KeychordEntry → Option (List KeychordEntry × List (List Nat))
  | [] => some ([], [])
  | e :: es => do
    let found ← allFound current e.keycodes
    let (es, called) ← checkEntries current es
    return ((checkEntry found e).1 :: es, if (checkEntry found e).2 then e.keycodes :: called else called)

/-- `LambdaCheck`. -/
def lambdaCheck (k : Keychords) : Option Keychords := do
  let (entries, called) ← checkEntries k.current k.entries
  return { k with entries, checks := k.checks ++ [⟨k.current, entries, called⟩] }

/-- `LambdaHandler`, of a device that is open. -/
def lambdaHandler (k : Keychords) (event : Option InputEvent) : Option Keychords :=
  match event with
  | none => some k
  | some event =>
    if event.type ≠ evKey then some k
    else ({ k with current := k.current.setBit event.code (event.value ≠ 0) } : Keychords).lambdaCheck

/-- The mask of all keys of all chords. -/
def chordMask (entries : List KeychordEntry) : Mask :=
  (entries.flatMap (·.keycodes)).foldl (fun mask code => (mask.resize code).setBit code true) {}

/-- `GeteventEnable`: whether the device can be used. -/
def geteventEnable (k : Keychords) (answers : DeviceAnswers) : Option (Bool × Keychords) :=
  if answers.version ≠ 0 then some (false, k)
  else
    let mask := chordMask k.entries
    let k := { k with current := k.current.resize mask.size }
    let available := (Mask.ofSize mask.size).filled answers.available.words
    if answers.available.res = -1 then some (false, k)
    else if !(available.and mask).isSet then some (false, k)
    else do
      let set := (Mask.ofSize mask.size).filled answers.pressed.words
      let k ← if answers.pressed.res > 0 then
          ({ k with current := k.current.orAssign ((mask.and available).and set) } : Keychords).lambdaCheck
        else some k
      return (answers.registered, k)

/-- `GeteventOpenDevice(device)`. -/
def geteventOpenDevice (k : Keychords) (device : String) (answers : DeviceAnswers) : Option Keychords :=
  if device ∈ k.registration then some k
  else if !answers.opened then some k
  else do
    let (enabled, k) ← k.geteventEnable answers
    return if enabled then { k with registration := device :: k.registration } else k

/-- `GeteventCloseDevice`. -/
def geteventCloseDevice (k : Keychords) (device : String) : Keychords := { k with registration := k.registration.erase device }

/-- `Register`. -/
def register (k : Keychords) (keycodes : List Nat) : Keychords :=
  if keycodes = [] then k else { k with entries := tryEmplace keycodes k.entries }

/-- The chords as they are when `Start` is called. -/
def registered (chords : List (List Nat)) : Keychords := chords.foldl register {}

/-- What happens after `Start`: a device appears, or goes, or sends an event. -/
inductive Happening where
  | create (device : String) (answers : DeviceAnswers)
  | delete (device : String)
  | input (device : String) (event : Option InputEvent)
deriving DecidableEq, Repr

/-- What a happening does. `Start` opens and watches nothing where there is no chord; only open devices are listened to. -/
def happens (k : Keychords) (h : Happening) : Option Keychords :=
  if k.entries = [] then some k
  else match h with
    | .create device answers => k.geteventOpenDevice device answers
    | .delete device => some (k.geteventCloseDevice device)
    | .input device event => if device ∈ k.registration then k.lambdaHandler event else some k

/-- The state after a sequence of happenings; none if a bit was read that is not there. -/
def after (chords : List (List Nat)) (hs : List Happening) : Option Keychords :=
  hs.foldl (fun k h => k.bind (fun k => k.happens h)) (some (registered chords))

end Keychords

end Innit
