import Innit.Lib.Run
import Innit.PropertyService

/-!
# Control messages

A `ctl.` request over a socket is taken by the property thread, queued, and handled by the main loop; the thread that has the
descriptor at the end answers and closes it. Here both threads are taken apart into their steps, in any order, with
`StopSendingMessages` and `StartSendingMessages` between them where the lock allows it. A descriptor stands for its connection.
-/

namespace Innit

/-- The two threads. -/
inductive InitThread where
  | property
  | main
deriving DecidableEq, Repr

/-- A request: `ctl.message` is set to `name`. `conn` is the connection of a `PROP_MSG_SETPROP2`; the other requests have no
socket to answer on. `refused` is the error of a request that does not get as far as `SendControlMessage`. -/
structure ControlRequest where
  message : String
  name : String
  pid : Nat
  conn : Option Nat
  refused : Option PropResult
deriving DecidableEq, Repr

/-- Where the property thread is: at the start of `HandlePropertySet`; before `QueueControlMessage`, with the released descriptor
and the lock on `accept_messages`; in the two calls after an overflow, still with the lock; before `SendUint32` and before the
destructor of the connection, with the socket it still has and whether the message is in the queue. -/
inductive PropertyThread where
  | idle
  | handlePropertySet (r : ControlRequest)
  | queueControlMessage (r : ControlRequest) (fd : Option Nat)
  | sendOverflow (r : ControlRequest) (fd : Nat)
  | closeOverflow (r : ControlRequest) (fd : Nat)
  | sendUint32 (r : ControlRequest) (socket : Option Nat) (result : PropResult) (queued : Bool)
  | closeSocket (r : ControlRequest) (socket : Option Nat) (queued : Bool)
deriving DecidableEq, Repr

/-- Where the main thread is in `HandleControlMessages`: outside; with a message popped; before the `send`, with its result; before
the `close`. -/
inductive MainThread where
  | idle
  | handleControlMessage (m : PendingControlMessage)
  | send (m : PendingControlMessage) (success : Bool)
  | close (m : PendingControlMessage)
deriving DecidableEq, Repr

/-- The two threads and what they share. The rest says what has happened: the messages that were accepted, with the connections
they came from, and those that were handled; the requests the property thread is done with, and whether it queued them; what was
done to the connections. -/
structure ControlState where
  propertyThread : PropertyThread := .idle
  mainThread : MainThread := .idle
  acceptMessages : Bool := true
  pendingControlMessages : List PendingControlMessage := []
  connections : Nat := 0
  accepted : List (Option Nat × PendingControlMessage) := []
  handled : List PendingControlMessage := []
  done : List (Option Nat × Bool) := []
  socketEvents : List (InitThread × SocketEvent) := []
deriving DecidableEq, Repr

/-- What can happen next: a request comes in, a step of one of the threads (with what `HandleControlMessage` returns), and the two
calls on `accept_messages`. -/
inductive ControlStep where
  | request (message name : String) (pid : Nat) (setprop2 : Bool) (refused : Option PropResult)
  | property
  | main (success : Bool)
  | stopSendingMessages
  | startSendingMessages
deriving DecidableEq, Repr

/-- The property thread holds the lock on `accept_messages`. -/
def PropertyThread.locked : PropertyThread → Bool
  | .queueControlMessage _ _ | .sendOverflow _ _ | .closeOverflow _ _ => true
  | _ => false

namespace ControlState

/-- `send` and `close` on a descriptor, where there is one. -/
def onSocket (thread : InitThread) (socket : Option Nat) (event : Nat → SocketEvent) (s : ControlState) : ControlState :=
  { s with socketEvents := s.socketEvents ++ socket.toList.map (fun fd => (thread, event fd)) }

/-- The next step of the property thread. -/
def stepProperty (vendorApi : Nat) (s : ControlState) : ControlState :=
  match s.propertyThread with
  | .idle => s
  | .handlePropertySet r => match r.refused with
    | some result => { s with propertyThread := .sendUint32 r r.conn result false }
    | none =>
      if !s.acceptMessages then { s with propertyThread := .sendUint32 r r.conn .errorHandleControlMessage false }
      else { s with propertyThread := .queueControlMessage r (if vendorApi > apiQ then r.conn else none) }
  | .queueControlMessage r fd =>
    -- the connection has its socket unless it was released
    let socket := if fd.isSome then none else r.conn
    match Innit.queueControlMessage ⟨r.message, r.name, r.pid, fd⟩ s.pendingControlMessages, fd with
    | (true, pending), fd => { s with
        pendingControlMessages := pending
        accepted := s.accepted ++ [(r.conn, ⟨r.message, r.name, r.pid, fd⟩)]
        propertyThread := .sendUint32 r socket .success true }
    | (false, _), some fd => { s with propertyThread := .sendOverflow r fd }
    | (false, _), none => { s with propertyThread := .sendUint32 r socket .success false }
  | .sendOverflow r fd =>
    { s.onSocket .property (some fd) (.reply · .errorHandleControlMessage) with propertyThread := .closeOverflow r fd }
  | .closeOverflow r fd => { s.onSocket .property (some fd) .close with propertyThread := .sendUint32 r none .success false }
  | .sendUint32 r socket result queued =>
    { s.onSocket .property socket (.reply · result) with propertyThread := .closeSocket r socket queued }
  | .closeSocket r socket queued =>
    { s.onSocket .property socket .close with propertyThread := .idle, done := s.done ++ [(r.conn, queued)] }

/-- The next step of the main thread in `HandleControlMessages`. -/
def stepMain (success : Bool) (s : ControlState) : ControlState :=
  match s.mainThread with
  | .idle => match s.pendingControlMessages with
    | [] => s
    | m :: pending => { s with pendingControlMessages := pending, mainThread := .handleControlMessage m }
  | .handleControlMessage m => { s with mainThread := .send m success }
  | .send m success =>
    { s.onSocket .main m.fd (.reply · (if success then .success else .errorHandleControlMessage)) with mainThread := .close m }
  | .close m => { s.onSocket .main m.fd .close with mainThread := .idle, handled := s.handled ++ [m] }

/-- One step. A request waits while the property thread is busy, the calls on `accept_messages` while it has the lock. -/
def step (vendorApi : Nat) (s : ControlState) : ControlStep → ControlState
  | .request message name pid setprop2 refused => match s.propertyThread with
    | .idle => { s with
        propertyThread := .handlePropertySet ⟨message, name, pid, if setprop2 then some s.connections else none, refused⟩
        connections := if setprop2 then s.connections + 1 else s.connections }
    | _ => s
  | .property => s.stepProperty vendorApi
  | .main success => s.stepMain success
  | .stopSendingMessages => if s.propertyThread.locked then s else { s with acceptMessages := false }
  | .startSendingMessages => if s.propertyThread.locked then s else { s with acceptMessages := true }

/-- A run. -/
def run (vendorApi : Nat) (steps : List ControlStep) : ControlState := steps.foldl (step vendorApi) {}

/-- The replies sent on a connection. -/
def replies (s : ControlState) (conn : Nat) : Nat :=
  s.socketEvents.countP (fun e => match e.2 with | .reply fd _ => fd = conn | .close _ => false)

/-- The times a connection was closed. -/
def closes (s : ControlState) (conn : Nat) : Nat :=
  s.socketEvents.countP (fun e => match e.2 with | .close fd => fd = conn | .reply _ _ => false)

end ControlState

/-- The steps of the property thread, one after the other, are `SendControlMessage`: the same result, the same queue, and the same
calls on the connection. -/
theorem property_steps_sendControlMessage (E : PropertyEnv) (r : ControlRequest) (hrefused : r.refused = none) (s : ControlState)
    (hthread : s.propertyThread = .handlePropertySet r) (svc : PropertyService) (haccept : svc.acceptMessages = s.acceptMessages)
    (hpending : svc.pendingControlMessages = s.pendingControlMessages) (hevents : svc.socketEvents = []) :
    ∃ n socket queued,
      let s' := (List.replicate n ControlStep.property).foldl (ControlState.step E.vendorApi) s
      let sent := svc.sendControlMessage E r.message r.name r.pid r.conn
      s'.propertyThread = .sendUint32 r socket sent.1 queued ∧
        s'.pendingControlMessages = sent.2.2.pendingControlMessages ∧
        s'.socketEvents = s.socketEvents ++ sent.2.2.socketEvents.map (fun e => (.property, e)) := by
  unfold PropertyService.sendControlMessage
  rw [haccept, hpending]
  cases hon : s.acceptMessages with
  | false =>
    refine ⟨1, r.conn, false, ?_⟩
    simp [List.replicate, ControlState.step, ControlState.stepProperty, hthread, hrefused, hon, hpending, hevents]
  | true =>
    simp only [Bool.not_true, Bool.false_eq_true, if_false]
    generalize hfd : (if E.vendorApi > apiQ then r.conn else none) = fd
    cases hqueue : Innit.queueControlMessage ⟨r.message, r.name, r.pid, fd⟩ s.pendingControlMessages with
    | mk accepted pending => cases accepted with
      | true =>
        refine ⟨2, if fd.isSome then none else r.conn, true, ?_⟩
        simp [List.replicate, ControlState.step, ControlState.stepProperty, hthread, hrefused, hon, hfd, hqueue, hevents]
      | false => cases fd with
        | none =>
          refine ⟨2, r.conn, false, ?_⟩
          simp [List.replicate, ControlState.step, ControlState.stepProperty, hthread, hrefused, hon, hfd, hqueue, hevents,
            hpending]
        | some fd =>
          refine ⟨4, none, false, ?_⟩
          simp [List.replicate, ControlState.step, ControlState.stepProperty, hthread, hrefused, hon, hfd, hqueue, hevents,
            ControlState.onSocket]

namespace ControlMessagesAux

open ControlState

variable {vendorApi : Nat} {s : ControlState}

/-- One, for the connection that is meant. -/
def one (socket : Option Nat) (c : Nat) : Nat := if socket = some c then 1 else 0

@[simp] theorem one_none (c : Nat) : one none c = 0 := rfl

/-- The connection the property thread has still to close. -/
def propertyConn : PropertyThread → Option Nat
  | .idle => none
  | .handlePropertySet r | .queueControlMessage r _ => r.conn
  | .sendOverflow _ fd | .closeOverflow _ fd => some fd
  | .sendUint32 _ socket _ _ | .closeSocket _ socket _ => socket

/-- The connection it has answered on and still to close. -/
def propertyAnswered : PropertyThread → Option Nat
  | .closeOverflow _ fd => some fd
  | .closeSocket _ socket _ => socket
  | _ => none

/-- The message the main thread has in hand. -/
def mainMessage : MainThread → Option PendingControlMessage
  | .idle => none
  | .handleControlMessage m | .send m _ | .close m => some m

/-- The connection the main thread has still to close. -/
def mainConn (t : MainThread) : Option Nat := (mainMessage t).bind (·.fd)

/-- The connection it has answered on and still to close. -/
def mainAnswered : MainThread → Option Nat
  | .close m => m.fd
  | _ => none

/-- The pending messages that carry a connection. -/
def pendingConns (pending : List PendingControlMessage) (c : Nat) : Nat := pending.countP (fun m => m.fd = some c)

/-- What the position of the property thread says of the connection of its request, when each was closed so many times. -/
def ThreadOk (vendorApi : Nat) (closes : Nat → Nat) : PropertyThread → Prop
  | .queueControlMessage r fd => fd = if vendorApi > apiQ then r.conn else none
  | .sendOverflow r fd | .closeOverflow r fd => r.conn = some fd
  | .sendUint32 r socket _ queued | .closeSocket r socket queued =>
    (queued = false ∨ vendorApi ≤ apiQ) → ∀ c, r.conn = some c → socket = some c ∨ 1 ≤ closes c
  | _ => True

/-- Every connection has one owner, until it is closed: a thread, or a pending message. It is answered just before it is closed.
The accepted messages are those handled, the one in hand and the pending ones, in this order. -/
structure Owned (vendorApi : Nat) (s : ControlState) : Prop where
  owner : ∀ c, one (propertyConn s.propertyThread) c + pendingConns s.pendingControlMessages c +
    one (mainConn s.mainThread) c + s.closes c = if c < s.connections then 1 else 0
  replied : ∀ c, s.replies c = s.closes c + one (propertyAnswered s.propertyThread) c + one (mainAnswered s.mainThread) c
  order : s.accepted.map (·.2) = s.handled ++ (mainMessage s.mainThread).toList ++ s.pendingControlMessages
  bounded : s.pendingControlMessages.length ≤ 101
  released : ∀ x ∈ s.accepted, x.2.fd = if vendorApi > apiQ then x.1 else none
  handled : ∀ m ∈ s.handled, ∀ c, m.fd = some c → 1 ≤ s.closes c
  done : ∀ x ∈ s.done, (x.2 = false ∨ vendorApi ≤ apiQ) → ∀ c, x.1 = some c → 1 ≤ s.closes c
  thread : ThreadOk vendorApi s.closes s.propertyThread

theorem replies_reply (thread : InitThread) (socket : Option Nat) (result : PropResult) (s : ControlState) (c : Nat) :
    (s.onSocket thread socket (.reply · result)).replies c = s.replies c + one socket c := by
  cases socket with
  | none => simp [onSocket, replies]
  | some fd => simp [onSocket, replies, one, List.countP_append, List.countP_singleton]

theorem closes_reply (thread : InitThread) (socket : Option Nat) (result : PropResult) (s : ControlState) (c : Nat) :
    (s.onSocket thread socket (.reply · result)).closes c = s.closes c := by
  cases socket with
  | none => simp [onSocket, closes]
  | some fd => simp [onSocket, closes, List.countP_append]

theorem replies_close (thread : InitThread) (socket : Option Nat) (s : ControlState) (c : Nat) :
    (s.onSocket thread socket .close).replies c = s.replies c := by
  cases socket with
  | none => simp [onSocket, replies]
  | some fd => simp [onSocket, replies, List.countP_append]

theorem closes_close (thread : InitThread) (socket : Option Nat) (s : ControlState) (c : Nat) :
    (s.onSocket thread socket .close).closes c = s.closes c + one socket c := by
  cases socket with
  | none => simp [onSocket, closes]
  | some fd => simp [onSocket, closes, one, List.countP_append, List.countP_singleton]

theorem owned_start (vendorApi : Nat) : Owned vendorApi {} where
  owner := fun _ => rfl
  replied := fun _ => rfl
  order := rfl
  bounded := Nat.zero_le _
  released := by simp
  handled := by simp
  done := by simp
  thread := trivial

theorem ThreadOk.mono {closes closes' : Nat → Nat} {t : PropertyThread} (h : ThreadOk vendorApi closes t)
    (hle : ∀ c, closes c ≤ closes' c) : ThreadOk vendorApi closes' t := by
  cases t with
  | sendUint32 r socket result queued =>
    intro hq c hc
    exact (h hq c hc).imp_right (fun hone => Nat.le_trans hone (hle c))
  | closeSocket r socket queued =>
    intro hq c hc
    exact (h hq c hc).imp_right (fun hone => Nat.le_trans hone (hle c))
  | _ => exact h

/-- A step of the property thread that neither answers nor closes, and queues nothing. -/
theorem owned_thread (h : Owned vendorApi s) {t : PropertyThread} (hconn : propertyConn t = propertyConn s.propertyThread)
    (hanswered : propertyAnswered t = propertyAnswered s.propertyThread) (ht : ThreadOk vendorApi s.closes t) :
    Owned vendorApi { s with propertyThread := t } where
  owner := fun c => by simp only [hconn]; exact h.owner c
  replied := fun c => by simp only [hanswered]; exact h.replied c
  order := h.order
  bounded := h.bounded
  released := h.released
  handled := h.handled
  done := h.done
  thread := ht

/-- A step of the property thread that answers on the connection it has. -/
theorem owned_reply (h : Owned vendorApi s) {t : PropertyThread} {socket : Option Nat} (result : PropResult)
    (hconn : propertyConn s.propertyThread = socket) (hbefore : propertyAnswered s.propertyThread = none)
    (hconn' : propertyConn t = socket) (hanswered : propertyAnswered t = socket) (ht : ThreadOk vendorApi s.closes t) :
    Owned vendorApi { s.onSocket .property socket (.reply · result) with propertyThread := t } where
  owner := fun c => by
    have howner := h.owner c
    rw [hconn] at howner
    simp only [hconn']
    exact (closes_reply .property socket result s c).symm ▸ howner
  replied := fun c => by
    have hreplied := h.replied c
    have hreplies := replies_reply .property socket result s c
    have hcloses := closes_reply .property socket result s c
    rw [hbefore, one_none] at hreplied
    simp only [hanswered]
    change (s.onSocket .property socket (.reply · result)).replies c =
      (s.onSocket .property socket (.reply · result)).closes c + one socket c + one (mainAnswered s.mainThread) c
    omega
  order := h.order
  bounded := h.bounded
  released := h.released
  handled := fun m hm c hc => (closes_reply .property socket result s c).symm ▸ h.handled m hm c hc
  done := fun x hx hq c hc => (closes_reply .property socket result s c).symm ▸ h.done x hx hq c hc
  thread := ht.mono (fun c => Nat.le_of_eq (closes_reply .property socket result s c).symm)

/-- A step of the property thread that closes the connection it has answered on. -/
theorem owned_close (h : Owned vendorApi s) {t : PropertyThread} {socket : Option Nat} {more : List (Option Nat × Bool)}
    (hconn : propertyConn s.propertyThread = socket) (hbefore : propertyAnswered s.propertyThread = socket)
    (hconn' : propertyConn t = none) (hanswered : propertyAnswered t = none)
    (ht : ThreadOk vendorApi (fun c => s.closes c + one socket c) t)
    (hmore : ∀ x ∈ more, (x.2 = false ∨ vendorApi ≤ apiQ) → ∀ c, x.1 = some c → 1 ≤ s.closes c + one socket c) :
    Owned vendorApi { s.onSocket .property socket .close with propertyThread := t, done := s.done ++ more } where
  owner := fun c => by
    have howner := h.owner c
    have hcloses := closes_close .property socket s c
    rw [hconn] at howner
    simp only [hconn', one_none]
    change 0 + pendingConns s.pendingControlMessages c + one (mainConn s.mainThread) c +
      (s.onSocket .property socket .close).closes c = if c < s.connections then 1 else 0
    rw [← howner, hcloses]
    omega
  replied := fun c => by
    have hreplied := h.replied c
    have hreplies := replies_close .property socket s c
    have hcloses := closes_close .property socket s c
    rw [hbefore] at hreplied
    simp only [hanswered, one_none]
    change (s.onSocket .property socket .close).replies c =
      (s.onSocket .property socket .close).closes c + 0 + one (mainAnswered s.mainThread) c
    omega
  order := h.order
  bounded := h.bounded
  released := h.released
  handled := fun m hm c hc => by
    have hone := h.handled m hm c hc
    have hcloses := closes_close .property socket s c
    exact Nat.le_trans hone (hcloses ▸ Nat.le_add_right _ _)
  done := fun x hx hq c hc => by
    have hcloses := closes_close .property socket s c
    rcases List.mem_append.1 hx with hx | hx
    · exact Nat.le_trans (h.done x hx hq c hc) (hcloses ▸ Nat.le_add_right _ _)
    · exact Nat.le_trans (hmore x hx hq c hc) (Nat.le_of_eq hcloses.symm)
  thread := ht.mono (fun c => Nat.le_of_eq (closes_close .property socket s c).symm)

/-- A message is accepted, with the connection if it was released. -/
theorem owned_accept (h : Owned vendorApi s) {r : ControlRequest} {fd : Option Nat}
    (hthread : s.propertyThread = .queueControlMessage r fd) (hroom : s.pendingControlMessages.length ≤ 100) :
    Owned vendorApi { s with
      pendingControlMessages := s.pendingControlMessages ++ [⟨r.message, r.name, r.pid, fd⟩]
      accepted := s.accepted ++ [(r.conn, ⟨r.message, r.name, r.pid, fd⟩)]
      propertyThread := .sendUint32 r (if fd.isSome then none else r.conn) .success true } := by
  have hfd : fd = if vendorApi > apiQ then r.conn else none := by
    have hok := h.thread
    rwa [hthread] at hok
  have hsplit : ∀ c, one r.conn c = one (if fd.isSome then none else r.conn) c + one fd c := by
    intro c
    rw [hfd]
    split
    · cases r.conn <;> simp
    · simp
  constructor
  · intro c
    have howner := h.owner c
    rw [hthread] at howner
    simp only [propertyConn] at howner ⊢
    change one (if fd.isSome then none else r.conn) c +
      pendingConns (s.pendingControlMessages ++ [⟨r.message, r.name, r.pid, fd⟩]) c + one (mainConn s.mainThread) c +
      s.closes c = _
    have hpending : pendingConns (s.pendingControlMessages ++ [⟨r.message, r.name, r.pid, fd⟩]) c =
        pendingConns s.pendingControlMessages c + one fd c := by
      simp [pendingConns, one, List.countP_append, List.countP_singleton]
    have hc := hsplit c
    rw [← howner, hpending]
    omega
  · intro c
    have hreplied := h.replied c
    rw [hthread] at hreplied
    exact hreplied
  · simp only [List.map_append, List.map_cons, List.map_nil, h.order, List.append_assoc]
  · simp only [List.length_append, List.length_singleton]
    omega
  · intro x hx
    rcases List.mem_append.1 hx with hx | hx
    · exact h.released x hx
    · rw [List.mem_singleton.1 hx]
      exact hfd
  · exact h.handled
  · exact h.done
  · intro hq c hc
    have hold : vendorApi ≤ apiQ := hq.resolve_left (by simp)
    rw [if_neg (by omega)] at hfd
    rw [hfd]
    exact .inl hc

/-- A step of the property thread. -/
theorem owned_stepProperty (h : Owned vendorApi s) : Owned vendorApi (s.stepProperty vendorApi) := by
  have hok := h.thread
  unfold stepProperty
  cases ht : s.propertyThread with
  | idle => exact h
  | handlePropertySet r =>
    have hconn : ∀ t, propertyConn t = r.conn → propertyConn t = propertyConn s.propertyThread := by
      intro t hr
      rw [hr, ht]
      rfl
    have hnone : propertyAnswered s.propertyThread = none := by rw [ht]; rfl
    simp only
    cases r.refused with
    | some result => exact owned_thread h (hconn _ rfl) hnone.symm (fun _ c hc => .inl hc)
    | none =>
      simp only
      split
      · exact owned_thread h (hconn _ rfl) hnone.symm (fun _ c hc => .inl hc)
      · exact owned_thread h (hconn _ rfl) hnone.symm rfl
  | queueControlMessage r fd =>
    rw [ht] at hok
    have hnone : propertyAnswered s.propertyThread = none := by rw [ht]; rfl
    simp only [queueControlMessage]
    split
    · next hqueue =>
      split at hqueue
      · cases hqueue
      · next hroom =>
        obtain ⟨_, rfl⟩ := Prod.mk.inj hqueue
        exact owned_accept h ht (by omega)
    · next fd' hqueue =>
      have hconn : r.conn = some fd' := by
        have hfd : some fd' = if vendorApi > apiQ then r.conn else none := hok
        split at hfd
        · exact hfd.symm
        · cases hfd
      refine owned_thread h ?_ hnone.symm hconn
      rw [ht]
      exact hconn.symm
    · refine owned_thread h ?_ hnone.symm (fun _ c hc => .inl hc)
      rw [ht]
      rfl
  | sendOverflow r fd =>
    rw [ht] at hok
    exact owned_reply h _ (by rw [ht]; rfl) (by rw [ht]; rfl) rfl rfl hok
  | closeOverflow r fd =>
    rw [ht] at hok
    have hthread : ThreadOk vendorApi (fun c => s.closes c + one (some fd) c) (.sendUint32 r none .success false) := by
      intro _ c hc
      have hfd : fd = c := Option.some.inj (hok.symm.trans hc)
      right
      simp [one, hfd]
    have hclosed : Owned vendorApi { s.onSocket .property (some fd) .close with
        propertyThread := .sendUint32 r none .success false, done := s.done ++ [] } :=
      owned_close h (by rw [ht]; rfl) (by rw [ht]; rfl) rfl rfl hthread (by simp)
    rw [List.append_nil] at hclosed
    exact hclosed
  | sendUint32 r socket result queued =>
    rw [ht] at hok
    exact owned_reply h _ (by rw [ht]; rfl) (by rw [ht]; rfl) rfl rfl hok
  | closeSocket r socket queued =>
    rw [ht] at hok
    refine owned_close h (by rw [ht]; rfl) (by rw [ht]; rfl) rfl rfl trivial ?_
    intro x hx hq c hc
    rw [List.mem_singleton.1 hx] at hq hc
    rcases hok hq c hc with rfl | hone
    · simp [one]
    · omega

/-- A step of the main thread. -/
theorem owned_stepMain (success : Bool) (h : Owned vendorApi s) : Owned vendorApi (s.stepMain success) := by
  have howner := h.owner
  have hreplied := h.replied
  have horder := h.order
  unfold stepMain
  cases ht : s.mainThread with
  | idle =>
    rw [ht] at howner hreplied horder
    cases hpending : s.pendingControlMessages with
    | nil => exact h
    | cons m pending =>
      rw [hpending] at howner horder
      refine ⟨fun c => ?_, hreplied, by rw [horder]; simp [mainMessage], ?_, h.released, h.handled, h.done, h.thread⟩
      · have hm : pendingConns (m :: pending) c = pendingConns pending c + one m.fd c := by
          simp [pendingConns, one, List.countP_cons]
        have hold := howner c
        rw [hm] at hold
        change one (propertyConn s.propertyThread) c + pendingConns pending c + one m.fd c + s.closes c = _
        rw [← hold]
        simp only [mainConn, mainMessage, Option.bind_none, one_none]
        omega
      · have hlen := h.bounded
        rw [hpending] at hlen
        exact Nat.le_trans (Nat.le_succ _) hlen
  | handleControlMessage m =>
    rw [ht] at howner hreplied horder
    exact ⟨howner, hreplied, horder, h.bounded, h.released, h.handled, h.done, h.thread⟩
  | send m success =>
    rw [ht] at howner hreplied horder
    have hcloses := closes_reply .main m.fd (if success then .success else .errorHandleControlMessage) s
    have hreplies := replies_reply .main m.fd (if success then .success else .errorHandleControlMessage) s
    refine ⟨fun c => ?_, fun c => ?_, horder, h.bounded, h.released, fun m' hm' c hc => ?_, fun x hx hq c hc => ?_,
      h.thread.mono (fun c => Nat.le_of_eq (hcloses c).symm)⟩
    · exact (hcloses c).symm ▸ howner c
    · have hold := hreplied c
      change (s.onSocket .main m.fd _).replies c =
        (s.onSocket .main m.fd _).closes c + one (propertyAnswered s.propertyThread) c + one m.fd c
      rw [hcloses, hreplies, hold]
      simp [mainAnswered]
    · exact (hcloses c).symm ▸ h.handled m' hm' c hc
    · exact (hcloses c).symm ▸ h.done x hx hq c hc
  | close m =>
    rw [ht] at howner hreplied horder
    have hcloses := closes_close .main m.fd s
    have hreplies := replies_close .main m.fd s
    have hmono : ∀ c, s.closes c ≤ (s.onSocket .main m.fd .close).closes c := by
      intro c
      rw [hcloses]
      exact Nat.le_add_right _ _
    refine ⟨fun c => ?_, fun c => ?_, ?_, h.bounded, h.released, fun m' hm' c hc => ?_,
      fun x hx hq c hc => Nat.le_trans (h.done x hx hq c hc) (hmono c), h.thread.mono hmono⟩
    · have hold := howner c
      change one (propertyConn s.propertyThread) c + pendingConns s.pendingControlMessages c + one none c +
        (s.onSocket .main m.fd .close).closes c = if c < s.connections then 1 else 0
      rw [hcloses, ← hold]
      simp only [mainConn, mainMessage, Option.bind_some, one_none]
      omega
    · have hold := hreplied c
      change (s.onSocket .main m.fd .close).replies c =
        (s.onSocket .main m.fd .close).closes c + one (propertyAnswered s.propertyThread) c + one none c
      rw [hcloses, hreplies, hold]
      simp only [mainAnswered, one_none]
      omega
    · rw [show (s.onSocket .main m.fd .close).accepted = s.accepted from rfl, horder]
      simp [mainMessage, onSocket]
    · rcases List.mem_append.1 hm' with hm' | hm'
      · exact Nat.le_trans (h.handled m' hm' c hc) (hmono c)
      · rw [List.mem_singleton.1 hm'] at hc
        have hone : one m.fd c = 1 := if_pos hc
        have hc' := hcloses c
        change 1 ≤ (s.onSocket .main m.fd .close).closes c
        omega

/-- A step. -/
theorem owned_step (h : Owned vendorApi s) (e : ControlStep) : Owned vendorApi (s.step vendorApi e) := by
  cases e with
  | property => exact owned_stepProperty h
  | main success => exact owned_stepMain success h
  | stopSendingMessages =>
    simp only [step]
    split
    · exact h
    · exact ⟨h.owner, h.replied, h.order, h.bounded, h.released, h.handled, h.done, h.thread⟩
  | startSendingMessages =>
    simp only [step]
    split
    · exact h
    · exact ⟨h.owner, h.replied, h.order, h.bounded, h.released, h.handled, h.done, h.thread⟩
  | request message name pid setprop2 refused =>
    have howner := h.owner
    have hreplied := h.replied
    simp only [step]
    cases ht : s.propertyThread with
    | idle =>
      rw [ht] at howner hreplied
      refine ⟨fun c => ?_, hreplied, h.order, h.bounded, h.released, h.handled, h.done, trivial⟩
      have hold := howner c
      cases setprop2 with
      | false => exact hold
      | true =>
        change one (some s.connections) c + pendingConns s.pendingControlMessages c + one (mainConn s.mainThread) c +
          s.closes c = if c < s.connections + 1 then 1 else 0
        simp only [propertyConn, one_none] at hold
        by_cases hc : c = s.connections
        · subst hc
          rw [if_neg (Nat.lt_irrefl _)] at hold
          have hone : one (some s.connections) s.connections = 1 := if_pos rfl
          rw [if_pos (Nat.lt_succ_self _), hone]
          omega
        · have hone : one (some s.connections) c = 0 := if_neg (fun h => hc (Option.some.inj h).symm)
          have hlt : (c < s.connections + 1) ↔ (c < s.connections) := by omega
          simp only [hlt, hone]
          exact hold
    | _ => exact h

/-- Only a connection a thread has is answered on. -/
theorem answered_le (t : PropertyThread) (t' : MainThread) (c : Nat) :
    one (propertyAnswered t) c ≤ one (propertyConn t) c ∧ one (mainAnswered t') c ≤ one (mainConn t') c := by
  constructor
  · cases t <;> simp [propertyAnswered, propertyConn]
  · cases t' <;> simp [mainAnswered, mainConn, mainMessage]

/-- The bounds of a connection, and what holds once it is closed. -/
theorem Owned.counts (h : Owned vendorApi s) (c : Nat) :
    s.replies c ≤ 1 ∧ s.closes c ≤ 1 ∧ (1 ≤ s.closes c → s.replies c = 1 ∧ s.closes c = 1) := by
  have howner := h.owner c
  have hreplied := h.replied c
  obtain ⟨hproperty, hmain⟩ := answered_le s.propertyThread s.mainThread c
  have hbound : (if c < s.connections then 1 else 0) ≤ 1 := by split <;> omega
  refine ⟨by omega, by omega, fun hclosed => ⟨by omega, by omega⟩⟩

/-- Every run. -/
theorem owned_run (vendorApi : Nat) (steps : List ControlStep) : Owned vendorApi (run vendorApi steps) :=
  Lib.run_always (I := Owned vendorApi) (fun _ e hs => owned_step hs e) steps (owned_start vendorApi)

end ControlMessagesAux

open ControlMessagesAux

/-- The protocol of control messages, in every run of the two threads. The messages that are handled are the first ones that were
accepted, in their order. On each connection at most one reply is sent, and it is closed at most once. When the vendor's release
is later than Q, both have happened by the time its message is handled, and for every release by the time the property thread is
done with a request that it did not queue; up to Q, by the time it is done with any request. The queue never holds more than 101
messages. -/
theorem control_messages (vendorApi : Nat) (steps : List ControlStep) :
    (ControlState.run vendorApi steps).handled <+: (ControlState.run vendorApi steps).accepted.map (·.2) ∧
      (∀ c, (ControlState.run vendorApi steps).replies c ≤ 1 ∧ (ControlState.run vendorApi steps).closes c ≤ 1) ∧
      (vendorApi > apiQ → ∀ x ∈ (ControlState.run vendorApi steps).accepted.take
        (ControlState.run vendorApi steps).handled.length, ∀ c, x.1 = some c →
          (ControlState.run vendorApi steps).replies c = 1 ∧ (ControlState.run vendorApi steps).closes c = 1) ∧
      (∀ x ∈ (ControlState.run vendorApi steps).done, (x.2 = false ∨ vendorApi ≤ apiQ) → ∀ c, x.1 = some c →
        (ControlState.run vendorApi steps).replies c = 1 ∧ (ControlState.run vendorApi steps).closes c = 1) ∧
      (ControlState.run vendorApi steps).pendingControlMessages.length ≤ 101 := by
  have h := owned_run vendorApi steps
  generalize ControlState.run vendorApi steps = s at h ⊢
  have hseen : s.handled <+: s.accepted.map (·.2) := by
    rw [h.order, List.append_assoc]
    exact List.prefix_append _ _
  refine ⟨hseen, fun c => ⟨(h.counts c).1, (h.counts c).2.1⟩, ?_, ?_, h.bounded⟩
  · intro hlater x hx c hc
    have hhandled : x.2 ∈ s.handled := by
      rw [List.prefix_iff_eq_take.1 hseen, ← List.map_take]
      exact List.mem_map_of_mem hx
    have hfd : x.2.fd = some c := by
      rw [h.released x (List.mem_of_mem_take hx), if_pos hlater, hc]
    exact (h.counts c).2.2 (h.handled x.2 hhandled c hfd)
  · intro x hx hq c hc
    exact (h.counts c).2.2 (h.done x hx hq c hc)

/-- Up to Q the property thread keeps the descriptor and answers itself: the main loop can be done with a message before that. -/
theorem handled_before_reply : ¬ ∀ vendorApi steps, ∀ x ∈ (ControlState.run vendorApi steps).accepted.take
    (ControlState.run vendorApi steps).handled.length, ∀ c, x.1 = some c → (ControlState.run vendorApi steps).replies c = 1 := by
  intro h
  have hreply := h apiQ [.request "start" "adbd" 100 true none, .property, .property, .main true, .main true, .main true,
    .main true] (some 0, ⟨"start", "adbd", 100, none⟩) (by decide) 0 rfl
  revert hreply
  decide

end Innit
