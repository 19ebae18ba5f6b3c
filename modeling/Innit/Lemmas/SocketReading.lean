import Innit.Lib.Transcript
import Innit.PropertySocket

/-!
# Reading from the property socket

The calls of the property service with their answers: the bytes they take, the time they count, what of them fails. A reading function
takes its bytes in the order in which they come, and gives up only on a failure or when the time is over.
-/

namespace Innit

open Lib Lib.Prog

/-! ## What a connection does -/

/-- A call, and its answer. -/
abbrev SocketAnswer := (op : SocketCall) × op.Ans

namespace SocketAnswer

instance : (op : SocketCall) → DecidableEq op.Ans
  | .accept4 => inferInstanceAs (DecidableEq (Option Nat))
  | .getPeerCred _ => inferInstanceAs (DecidableEq (Option Ucred))
  | .poll _ _ => inferInstanceAs (DecidableEq (PollResult × Nat))
  | .recv _ _ => inferInstanceAs (DecidableEq (List UInt8))
  | .getpeercon _ => inferInstanceAs (DecidableEq (Option String))
  | .send _ _ => inferInstanceAs (DecidableEq Unit)
  | .close _ => inferInstanceAs (DecidableEq Unit)

/-- The bytes that a call takes. -/
def bytes : SocketAnswer → List UInt8
  | ⟨.recv _ size, (available : List UInt8)⟩ => available.take size
  | _ => []

/-- The milliseconds that a call counts for. -/
def charge : SocketAnswer → Nat
  | ⟨.poll _ _, (nr, timeElapsed)⟩ => millisOf timeElapsed + if nr = .interrupted then 1 else 0
  | _ => 0

/-- The nanoseconds that a call waits, where `poll` keeps to its limit. -/
def wait : SocketAnswer → Nat
  | ⟨.poll _ timeoutMs, (_, timeElapsed)⟩ => min timeElapsed (nanosOf timeoutMs)
  | _ => 0

/-- A call is refused, or finds nothing. -/
def fails : SocketAnswer → Bool
  | ⟨.accept4, (fd : Option Nat)⟩ => fd.isNone
  | ⟨.getPeerCred _, (cr : Option Ucred)⟩ => cr.isNone
  | ⟨.poll _ _, (nr, _)⟩ => nr = .timeout || nr = .error
  | ⟨.recv _ size, (available : List UInt8)⟩ => (available.take size).isEmpty
  | ⟨.getpeercon _, (context : Option String)⟩ => context.isNone
  | _ => false

/-- The connection that a call is about. -/
def connection : SocketAnswer → Option Nat
  | ⟨.accept4, _⟩ => none
  | ⟨.getPeerCred fd, _⟩ => some fd
  | ⟨.poll fd _, _⟩ => some fd
  | ⟨.recv fd _, _⟩ => some fd
  | ⟨.getpeercon fd, _⟩ => some fd
  | ⟨.send fd _, _⟩ => some fd
  | ⟨.close fd, _⟩ => some fd

/-- A call waits for data of a connection, or takes some. -/
def readsFrom (fd : Nat) : SocketAnswer → Bool
  | ⟨.poll fd' _, _⟩ => fd' = fd
  | ⟨.recv fd' _, _⟩ => fd' = fd
  | _ => false

end SocketAnswer

/-- The bytes that have been taken. -/
def received (t : List SocketAnswer) : List UInt8 := t.flatMap SocketAnswer.bytes

/-- The milliseconds that have been counted. -/
def spent (t : List SocketAnswer) : Nat := (t.map SocketAnswer.charge).sum

/-- The nanoseconds that have been waited. -/
def waited (t : List SocketAnswer) : Nat := (t.map SocketAnswer.wait).sum

/-- The replies that have been sent. -/
def sends (t : List SocketAnswer) : List (Nat × PropResult) := t.filterMap fun
  | ⟨.send fd result, _⟩ => some (fd, result)
  | _ => none

/-- The descriptors that have been closed. -/
def closedSockets (t : List SocketAnswer) : List Nat := t.filterMap fun
  | ⟨.close fd, _⟩ => some fd
  | _ => none

/-- A number in four bytes, lowest first. -/
def uint32Bytes (n : Nat) : List UInt8 :=
  [UInt8.ofNat n, UInt8.ofNat (n / 256), UInt8.ofNat (n / 256 ^ 2), UInt8.ofNat (n / 256 ^ 3)]

/-- A text, with its length. -/
def stringBytes (chars : List UInt8) : List UInt8 := uint32Bytes chars.length ++ chars

/-- A request to set a property. -/
structure SetRequest where
  name : String
  value : String
  withReply : Bool
deriving DecidableEq, Repr

/-- What is sent for a request: in two buffers of fixed size that end in a NUL or are cut, or in two texts with their lengths. -/
inductive Encodes : SetRequest → List UInt8 → Prop
  | setprop {name value : List UInt8} (hname : name.length = propNameMax) (hvalue : value.length = propValueMax) :
      Encodes ⟨cStr (textOf (name.take (propNameMax - 1))), cStr (textOf (value.take (propValueMax - 1))), false⟩
        (uint32Bytes propMsgSetprop ++ (name ++ value))
  | setprop2 {name value : List UInt8} (hname : name.length ≤ 0xffff) (hvalue : value.length ≤ 0xffff) :
      Encodes ⟨textOf name, textOf value, true⟩ (uint32Bytes propMsgSetprop2 ++ (stringBytes name ++ stringBytes value))

/-- The bytes of the longest request. -/
def longestRequest : Nat := 4 + 2 * (4 + 0xffff)

/-- Nothing is acted on: a call has failed, the time was over, or what has come is no request. -/
def Misses (t : List SocketAnswer) : Prop :=
  (∃ e ∈ t, e.fails = true) ∨ kDefaultSocketTimeout ≤ spent t ∨ ∀ q stream, Encodes q stream → ¬ received t <+: stream

namespace SocketRequestsAux

open SocketProg

variable {t t' : List SocketAnswer} {fd timeoutMs left : Nat}

/-! ## Bytes -/

@[simp] theorem received_nil : received [] = [] := rfl

/-- The bytes of two runs of calls. -/
@[simp] theorem received_append : received (t ++ t') = received t ++ received t' := List.flatMap_append

@[simp] theorem received_cons {e : SocketAnswer} : received (e :: t) = e.bytes ++ received t := List.flatMap_cons

@[simp] theorem spent_nil : spent [] = 0 := rfl

/-- The time counted in them. -/
@[simp] theorem spent_append : spent (t ++ t') = spent t + spent t' := by simp [spent]

@[simp] theorem spent_cons {e : SocketAnswer} : spent (e :: t) = e.charge + spent t := by simp [spent]

@[simp] theorem waited_nil : waited [] = 0 := rfl

/-- The time waited in them. -/
@[simp] theorem waited_append : waited (t ++ t') = waited t + waited t' := by simp [waited]

@[simp] theorem waited_cons {e : SocketAnswer} : waited (e :: t) = e.wait + waited t := by simp [waited]

/-- A number is read as it was written. -/
theorem uint32Of_bytes {n : Nat} (h : n < 2 ^ 32) : uint32Of (uint32Bytes n) = n := by
  simp only [uint32Of, uint32Bytes, List.map_cons, List.map_nil, UInt8.toNat_ofNat', Nat.ofDigits_cons, Nat.ofDigits_nil]
  omega

/-- Four bytes are those of the number they make. -/
theorem bytes_uint32Of {bytes : List UInt8} (h : bytes.length = 4) : uint32Bytes (uint32Of bytes) = bytes := by
  obtain ⟨a, b, c, d, rfl⟩ : ∃ a b c d, bytes = [a, b, c, d] := by
    match bytes, h with
    | [a, b, c, d], _ => exact ⟨a, b, c, d, rfl⟩
  have ha := a.toNat_lt
  have hb := b.toNat_lt
  have hc := c.toNat_lt
  have hd := d.toNat_lt
  simp only [uint32Of, uint32Bytes, List.map_cons, List.map_nil, Nat.ofDigits_cons, Nat.ofDigits_nil, List.cons.injEq, and_true,
    ← UInt8.toNat_inj, UInt8.toNat_ofNat']
  omega

/-- A prefix whose first part is as long as that of the whole. -/
theorem prefix_parts {α : Type} {a b c d : List α} (h : a ++ b <+: c ++ d) (hlen : a.length = c.length) : a = c ∧ b <+: d := by
  obtain ⟨rest, hrest⟩ := h
  rw [List.append_assoc] at hrest
  obtain ⟨rfl, hd⟩ := List.append_inj hrest hlen
  exact ⟨rfl, rest, hd⟩

/-! ## Time -/

/-- Nanoseconds add up. -/
theorem nanosOf_add (a b : Nat) : nanosOf (a + b) = nanosOf a + nanosOf b := Nat.add_mul a b _

/-- More milliseconds are more nanoseconds. -/
theorem nanosOf_mono {a b : Nat} (h : a ≤ b) : nanosOf a ≤ nanosOf b := Nat.mul_le_mul_right _ h

/-- An interrupted `poll` is charged for at least the time it took. -/
theorem wait_interrupted (timeElapsed timeoutMs : Nat) :
    min timeElapsed (nanosOf timeoutMs) + nanosOf (timeoutMs - millisOf timeElapsed - 1) ≤ nanosOf timeoutMs := by
  by_cases hover : timeoutMs ≤ millisOf timeElapsed
  · rw [Nat.sub_eq_zero_of_le hover]
    exact Nat.min_le_right _ _
  · have helapsed : timeElapsed ≤ nanosOf (millisOf timeElapsed + 1) := by
      unfold nanosOf millisOf
      rw [Nat.mul_comm]
      exact Nat.le_of_lt (Nat.lt_mul_div_succ timeElapsed (by decide))
    calc min timeElapsed (nanosOf timeoutMs) + nanosOf (timeoutMs - millisOf timeElapsed - 1)
        ≤ nanosOf (millisOf timeElapsed + 1) + nanosOf (timeoutMs - millisOf timeElapsed - 1) :=
          Nat.add_le_add_right ((Nat.min_le_left _ _).trans helapsed) _
      _ = nanosOf timeoutMs := by
          rw [← nanosOf_add]
          congr 1
          omega

/-- Another one is charged for it but for a part of a millisecond. -/
theorem wait_poll (timeElapsed timeoutMs : Nat) :
    min timeElapsed (nanosOf timeoutMs) + nanosOf (timeoutMs - millisOf timeElapsed) ≤ nanosOf (timeoutMs + 1) := by
  have hinterrupted := wait_interrupted timeElapsed timeoutMs
  have hless : nanosOf (timeoutMs - millisOf timeElapsed) ≤ nanosOf (timeoutMs - millisOf timeElapsed - 1 + 1) :=
    nanosOf_mono (by omega)
  rw [nanosOf_add] at hless ⊢
  omega

/-! ## Reading -/

/-- What waiting for data does: it takes nothing, and gives up on a failure or when the time is over. -/
structure Polls (fd timeoutMs : Nat) (t : List SocketAnswer) (ready : Bool) (left : Nat) : Prop where
  calls : ∀ e ∈ t, e.readsFrom fd = true
  nothing : received t = []
  left_eq : left = timeoutMs - spent t
  waits : waited t + nanosOf left ≤ nanosOf (timeoutMs + 1)
  few : t.length + left ≤ timeoutMs + 1
  gaveUp : ready = false → (∃ e ∈ t, e.fails = true) ∨ timeoutMs ≤ spent t

/-- One `poll` that is not interrupted. -/
theorem polls_once {nr : PollResult} {timeElapsed : Nat} {ready : Bool} (hnr : nr ≠ .interrupted)
    (hfails : ready = false → SocketAnswer.fails ⟨.poll fd timeoutMs, (nr, timeElapsed)⟩ = true) :
    Polls fd timeoutMs [⟨.poll fd timeoutMs, (nr, timeElapsed)⟩] ready (timeoutMs - millisOf timeElapsed) where
  calls := by simp [SocketAnswer.readsFrom]
  nothing := rfl
  left_eq := by simp [SocketAnswer.charge, hnr]
  waits := by simpa [SocketAnswer.wait] using wait_poll timeElapsed timeoutMs
  few := by
    rw [List.length_singleton]
    omega
  gaveUp := fun hready => .inl ⟨_, List.mem_cons_self, hfails hready⟩

/-- What comes of waiting for data. -/
theorem transcript_pollInLoop (rounds : Nat) {r : Except Empty (Bool × Nat)} (hrounds : timeoutMs ≤ rounds)
    (h : Transcript (pollInLoop fd rounds timeoutMs) t r) : ∃ ready left, r = .ok (ready, left) ∧ Polls fd timeoutMs t ready left := by
  induction rounds generalizing timeoutMs t with
  | zero =>
    obtain ⟨rfl, rfl⟩ := transcript_pure h
    exact ⟨_, _, rfl, by simp, rfl, rfl, by simpa using nanosOf_mono (Nat.le_succ _), by simp, fun _ => .inr (by omega)⟩
  | succ rounds ih =>
    unfold pollInLoop at h
    split at h
    · next hzero =>
      obtain ⟨rfl, rfl⟩ := transcript_pure h
      exact ⟨_, _, rfl, by simp, rfl, by omega, by simpa using nanosOf_mono (Nat.zero_le _), by simp, fun _ => .inr (by omega)⟩
    · next hpos =>
      obtain ⟨⟨nr, timeElapsed⟩, t', rfl, h'⟩ := transcript_lift_bind h
      dsimp only at h'
      cases nr with
      | ready =>
        obtain ⟨rfl, rfl⟩ := transcript_pure h'
        exact ⟨_, _, rfl, polls_once (by decide) fun hready => by cases hready⟩
      | timeout =>
        obtain ⟨rfl, rfl⟩ := transcript_pure h'
        exact ⟨_, _, rfl, polls_once (by decide) fun _ => by simp [SocketAnswer.fails]⟩
      | error =>
        obtain ⟨rfl, rfl⟩ := transcript_pure h'
        exact ⟨_, _, rfl, polls_once (by decide) fun _ => by simp [SocketAnswer.fails]⟩
      | interrupted =>
        obtain ⟨ready, left, rfl, hpolls⟩ := ih (by omega) h'
        have hleft := hpolls.left_eq
        have hwaits := hpolls.waits
        have hfew := hpolls.few
        refine ⟨_, _, rfl, ?_, ?_, ?_, ?_, ?_, fun hready => ?_⟩
        · exact List.forall_mem_cons.2 ⟨by simp [SocketAnswer.readsFrom], hpolls.calls⟩
        · simp [SocketAnswer.bytes, hpolls.nothing]
        · simp only [spent_cons, SocketAnswer.charge, if_true]
          omega
        · have hwait := wait_interrupted timeElapsed timeoutMs
          rw [nanosOf_add] at hwaits ⊢
          simp only [waited_cons, SocketAnswer.wait]
          omega
        · rw [List.length_cons]
          omega
        · rcases hpolls.gaveUp hready with ⟨e, he, hfails⟩ | hspent
          · exact .inl ⟨e, List.mem_cons_of_mem _ he, hfails⟩
          · refine .inr ?_
            simp only [spent_cons, SocketAnswer.charge, if_true]
            omega

/-- What reading does: it asks for data and takes some, and counts the time. -/
structure Reads (fd timeoutMs : Nat) (t : List SocketAnswer) (left : Nat) : Prop where
  calls : ∀ e ∈ t, e.readsFrom fd = true
  left_eq : left = timeoutMs - spent t

/-- All that is read has come. A round waits a part of a millisecond that is not counted, and takes a byte at least. -/
structure Takes (fd timeoutMs : Nat) (t : List SocketAnswer) (left : Nat) : Prop extends Reads fd timeoutMs t left where
  waits : waited t + nanosOf left ≤ nanosOf (timeoutMs + (received t).length)
  few : t.length + left ≤ timeoutMs + 2 * (received t).length

/-- Reading gives up, in a round that takes nothing. -/
structure GivesUp (fd timeoutMs : Nat) (t : List SocketAnswer) (left : Nat) : Prop extends Reads fd timeoutMs t left where
  waits : waited t + nanosOf left ≤ nanosOf (timeoutMs + (received t).length + 1)
  few : t.length + left ≤ timeoutMs + 2 * (received t).length + 2
  reason : (∃ e ∈ t, e.fails = true) ∨ timeoutMs ≤ spent t

/-- Nothing is read, and the time is as it was. -/
theorem takes_nil : Takes fd timeoutMs [] timeoutMs := ⟨⟨by simp, rfl⟩, by simp, by simp⟩

/-- Reading after reading. -/
theorem Reads.append {left' : Nat} (h : Reads fd timeoutMs t left) (h' : Reads fd left t' left') :
    Reads fd timeoutMs (t ++ t') left' where
  calls := fun e he => (List.mem_append.1 he).elim (h.calls e) (h'.calls e)
  left_eq := by
    rw [h'.left_eq, h.left_eq, spent_append]
    omega

/-- More is read, in the time that is left. -/
theorem Takes.append {left' : Nat} (h : Takes fd timeoutMs t left) (h' : Takes fd left t' left') :
    Takes fd timeoutMs (t ++ t') left' where
  toReads := h.toReads.append h'.toReads
  waits := by
    have hbefore := h.waits
    have hafter := h'.waits
    simp only [waited_append, received_append, List.length_append, nanosOf_add] at hbefore hafter ⊢
    omega
  few := by
    have hbefore := h.few
    have hafter := h'.few
    rw [List.length_append, received_append, List.length_append]
    omega

/-- Reading gives up after it has taken something. -/
theorem Takes.givesUp {left' : Nat} (h : Takes fd timeoutMs t left) (h' : GivesUp fd left t' left') :
    GivesUp fd timeoutMs (t ++ t') left' where
  toReads := h.toReads.append h'.toReads
  waits := by
    have hbefore := h.waits
    have hafter := h'.waits
    simp only [waited_append, received_append, List.length_append, nanosOf_add] at hbefore hafter ⊢
    omega
  few := by
    have hbefore := h.few
    have hafter := h'.few
    rw [List.length_append, received_append, List.length_append]
    omega
  reason := by
    rcases h'.reason with ⟨e, he, hfails⟩ | hspent
    · exact .inl ⟨e, List.mem_append_right _ he, hfails⟩
    · have hleft := h.left_eq
      rw [spent_append]
      omega

/-- A round of reading. -/
theorem takes_round {before : List SocketAnswer} {size : Nat} {available : List UInt8} (h : Polls fd timeoutMs before true left)
    (hbytes : available.take size ≠ []) :
    Takes fd timeoutMs (before ++ [⟨.recv fd size, available⟩]) left where
  calls := by
    intro e he
    rcases List.mem_append.1 he with he | he
    · exact h.calls e he
    · obtain rfl := List.mem_singleton.1 he
      simp [SocketAnswer.readsFrom]
  left_eq := by simpa [SocketAnswer.charge] using h.left_eq
  waits := by
    have hwaits := h.waits
    have hpos := List.length_pos_iff.2 hbytes
    simp only [waited_append, waited_cons, waited_nil, SocketAnswer.wait, received_append, h.nothing, received_cons, received_nil,
      SocketAnswer.bytes, List.nil_append, List.append_nil]
    exact hwaits.trans (nanosOf_mono (by omega))
  few := by
    have hfew := h.few
    have hpos := List.length_pos_iff.2 hbytes
    simp only [List.length_append, List.length_singleton, received_append, h.nothing, received_cons, received_nil, SocketAnswer.bytes,
      List.nil_append, List.append_nil]
    omega

/-- Waiting gives up. -/
theorem Polls.givesUp (h : Polls fd timeoutMs t false left) : GivesUp fd timeoutMs t left where
  calls := h.calls
  left_eq := h.left_eq
  waits := h.waits.trans (nanosOf_mono (by omega))
  few := by
    have hfew := h.few
    omega
  reason := h.gaveUp rfl

/-- The peer sends nothing more. -/
theorem givesUp_recv {before : List SocketAnswer} {size : Nat} {available : List UInt8} (h : Polls fd timeoutMs before true left)
    (hbytes : available.take size = []) : GivesUp fd timeoutMs (before ++ [⟨.recv fd size, available⟩]) left where
  calls := by
    intro e he
    rcases List.mem_append.1 he with he | he
    · exact h.calls e he
    · obtain rfl := List.mem_singleton.1 he
      simp [SocketAnswer.readsFrom]
  left_eq := by simpa [SocketAnswer.charge] using h.left_eq
  waits := by
    have hwaits := h.waits
    simp only [waited_append, waited_cons, waited_nil, SocketAnswer.wait]
    exact hwaits.trans (nanosOf_mono (by omega))
  few := by
    have hfew := h.few
    rw [List.length_append, List.length_singleton]
    omega
  reason := .inl ⟨_, List.mem_append_right _ List.mem_cons_self, by simp [SocketAnswer.fails, hbytes]⟩

/-- A number of bytes is read: all of them, in the order in which they come, or reading gives up. -/
theorem transcript_recvFullyLoop (rounds : Nat) {bytesLeft : Nat} {data : List UInt8} {r : Except Empty (Option (List UInt8) × Nat)}
    (hrounds : bytesLeft ≤ rounds) (h : Transcript (recvFullyLoop fd rounds bytesLeft data timeoutMs) t r) :
    ∃ left, (r = .ok (some (data ++ received t), left) ∧ (received t).length = bytesLeft ∧ Takes fd timeoutMs t left) ∨
      (r = .ok (none, left) ∧ (received t).length < bytesLeft ∧ GivesUp fd timeoutMs t left) := by
  induction rounds generalizing bytesLeft data timeoutMs t with
  | zero =>
    obtain ⟨rfl, rfl⟩ := transcript_pure h
    obtain rfl : bytesLeft = 0 := by omega
    exact ⟨_, .inl ⟨by simp, rfl, takes_nil⟩⟩
  | succ rounds ih =>
    unfold recvFullyLoop at h
    split at h
    · next hend =>
      obtain ⟨rfl, rfl⟩ := transcript_pure h
      refine ⟨timeoutMs, ?_⟩
      by_cases hbytes : bytesLeft = 0
      · exact .inl ⟨by simp [hbytes], hbytes.symm, takes_nil⟩
      · refine .inr ⟨by simp [hbytes], Nat.pos_of_ne_zero hbytes, takes_nil.toReads, ?_, by simp, .inr ?_⟩
        · simpa using nanosOf_mono (Nat.le_succ timeoutMs)
        · have hzero := hend.resolve_right hbytes
          omega
    · next hmore =>
      have hpos : 0 < bytesLeft := by omega
      obtain ⟨⟨ready, left⟩, before, after, rfl, hpoll, h'⟩ := transcript_seq h
      obtain ⟨_, _, heq, hpolls⟩ := transcript_pollInLoop timeoutMs (Nat.le_refl _) hpoll
      cases heq
      dsimp only at h'
      split at h'
      · next hready =>
        obtain rfl : ready = false := by simpa using hready
        obtain ⟨rfl, rfl⟩ := transcript_pure h'
        exact ⟨left, .inr ⟨rfl, by simpa [hpolls.nothing] using hpos, by simpa using hpolls.givesUp⟩⟩
      · next hready =>
        obtain rfl : ready = true := by simpa using hready
        obtain ⟨available, rest, rfl, h₂⟩ := transcript_lift_bind h'
        split at h₂
        · next hnothing =>
          obtain ⟨rfl, rfl⟩ := transcript_pure h₂
          refine ⟨left, .inr ⟨rfl, ?_, givesUp_recv hpolls hnothing⟩⟩
          simpa [hpolls.nothing, SocketAnswer.bytes, hnothing] using hpos
        · next hbytes =>
          have hlen : (available.take bytesLeft).length ≤ bytesLeft := List.length_take_le _ _
          have hpos := List.length_pos_iff.2 hbytes
          have hround := takes_round hpolls hbytes
          obtain ⟨left', hrest⟩ := ih (by omega) h₂
          have hreceived :
              received (before ++ ⟨.recv fd bytesLeft, available⟩ :: rest) = available.take bytesLeft ++ received rest := by
            simp [hpolls.nothing, SocketAnswer.bytes]
          rw [List.append_cons]
          rw [List.append_cons] at hreceived
          refine ⟨left', hrest.imp ?_ ?_⟩
          · rintro ⟨rfl, hall, htakes⟩
            refine ⟨?_, ?_, hround.append htakes⟩
            · rw [hreceived, List.append_assoc]
            · rw [hreceived, List.length_append]
              omega
          · rintro ⟨rfl, hsome, hgives⟩
            refine ⟨rfl, ?_, hround.givesUp hgives⟩
            rw [hreceived, List.length_append]
            omega

/-- What comes of reading a number of bytes. -/
theorem transcript_recvFully {size : Nat} {r : Except Empty (Option (List UInt8) × Nat)}
    (h : Transcript (recvFully fd size timeoutMs) t r) :
    ∃ left, (r = .ok (some (received t), left) ∧ (received t).length = size ∧ Takes fd timeoutMs t left) ∨
      (r = .ok (none, left) ∧ (received t).length < size ∧ GivesUp fd timeoutMs t left) :=
  transcript_recvFullyLoop size (Nat.le_refl _) h

/-- What comes of reading a number. -/
theorem transcript_recvUint32 {r : Except Empty (Option Nat × Nat)} (h : Transcript (recvUint32 fd timeoutMs) t r) :
    ∃ left, (r = .ok (some (uint32Of (received t)), left) ∧ (received t).length = 4 ∧ Takes fd timeoutMs t left) ∨
      (r = .ok (none, left) ∧ (received t).length < 4 ∧ GivesUp fd timeoutMs t left) := by
  obtain ⟨⟨bytes, left⟩, before, after, rfl, hrecv, h'⟩ := transcript_seq h
  obtain ⟨rfl, rfl⟩ := transcript_pure h'
  rw [List.append_nil]
  obtain ⟨_, ⟨heq, hlen, htakes⟩ | ⟨heq, hlen, hgives⟩⟩ := transcript_recvFully hrecv
  · cases heq
    exact ⟨left, .inl ⟨rfl, hlen, htakes⟩⟩
  · cases heq
    exact ⟨left, .inr ⟨rfl, hlen, hgives⟩⟩

/-- What comes of reading a text: the text, a length that is refused, or nothing. -/
inductive StringRead (fd timeoutMs : Nat) (t : List SocketAnswer) : Option String → Nat → Prop
  | text {chars : List UInt8} {left : Nat} (hbytes : received t = stringBytes chars) (hlen : chars.length ≤ 0xffff)
      (htakes : Takes fd timeoutMs t left) : StringRead fd timeoutMs t (some (textOf chars)) left
  | huge {left : Nat} (hfour : (received t).length = 4) (hlen : 0xffff < uint32Of (received t))
      (htakes : Takes fd timeoutMs t left) : StringRead fd timeoutMs t none left
  | gaveUp {left : Nat} (hlen : (received t).length ≤ 4 + 0xffff) (hgives : GivesUp fd timeoutMs t left) :
      StringRead fd timeoutMs t none left

/-- What comes of reading a text. -/
theorem transcript_recvString {r : Except Empty (Option String × Nat)} (h : Transcript (recvString fd timeoutMs) t r) :
    ∃ text left, r = .ok (text, left) ∧ StringRead fd timeoutMs t text left := by
  obtain ⟨⟨len, left⟩, before, after, rfl, hrecv, h'⟩ := transcript_seq h
  obtain ⟨_, ⟨heq, hfour, htakes⟩ | ⟨heq, hfour, hgives⟩⟩ := transcript_recvUint32 hrecv
  · cases heq
    dsimp only at h'
    split at h'
    · next heq => cases heq
    · next hzero =>
      obtain ⟨rfl, rfl⟩ := transcript_pure h'
      have hempty : received before = stringBytes [] := by
        rw [← bytes_uint32Of hfour, Option.some.inj hzero]
        rfl
      refine ⟨_, _, rfl, ?_⟩
      rw [List.append_nil]
      exact .text hempty (Nat.zero_le _) htakes
    · next len _ hlen =>
      obtain rfl := Option.some.inj hlen
      split at h'
      · next hhuge =>
        obtain ⟨rfl, rfl⟩ := transcript_pure h'
        refine ⟨_, _, rfl, ?_⟩
        rw [List.append_nil]
        exact .huge hfour hhuge htakes
      · next hfits =>
        obtain ⟨⟨chars, left'⟩, t₁, t₂, rfl, hchars, h₂⟩ := transcript_seq h'
        obtain ⟨rfl, rfl⟩ := transcript_pure h₂
        refine ⟨_, _, rfl, ?_⟩
        rw [List.append_nil]
        obtain ⟨_, ⟨heq, hall, htakes'⟩ | ⟨heq, hsome, hgives⟩⟩ := transcript_recvFully hchars
        · cases heq
          refine .text ?_ (by omega) (htakes.append htakes')
          rw [received_append, stringBytes, hall, bytes_uint32Of hfour]
        · cases heq
          refine .gaveUp ?_ (htakes.givesUp hgives)
          rw [received_append, List.length_append]
          omega
  · cases heq
    obtain ⟨rfl, rfl⟩ := transcript_pure h'
    refine ⟨_, _, rfl, ?_⟩
    rw [List.append_nil]
    exact .gaveUp (by omega) hgives

end SocketRequestsAux

end Innit
