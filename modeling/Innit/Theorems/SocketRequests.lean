import Innit.Lemmas.SocketConnections
import Innit.Theorems.PropertyStore

/-!
# Requests over the property socket

However a peer cuts up what it sends, and whatever `poll` and `recv` answer, the property service acts on a request at most once, on
exactly what was sent, answers each connection as its protocol says, and is done with it in bounded time.
-/

namespace Innit

open Lib Lib.Prog

open SocketRequestsAux

/-- A request is acted on: the peer is known, and what it is told is what came of the request. -/
structure ActedOn (E : PropertyEnv) (s : PropertyService) (t : List SocketAnswer) (q : SetRequest) (fd : Nat) (cr : Ucred)
    (context : String) (s' : PropertyService) : Prop where
  accepted : (⟨.accept4, some fd⟩ : SocketAnswer) ∈ t
  known : (⟨.getPeerCred fd, some cr⟩ : SocketAnswer) ∈ t
  labelled : (⟨.getpeercon fd, some context⟩ : SocketAnswer) ∈ t
  set : s' = (s.handlePropertySet E q.name q.value context cr (if q.withReply then some fd else none)).2.2
  told : ∀ reply ∈ sends t, reply = (fd, (s.handlePropertySet E q.name q.value context cr (if q.withReply then some fd else none)).1)

namespace SocketRequestsAux

variable {E : PropertyEnv} {s s' : PropertyService} {t : List SocketAnswer}

/-- The calls of a connection, and those around them. -/
abbrev sessionOf (fd : Nat) (cr : Ucred) (t : List SocketAnswer) (socket : Option Nat) : List SocketAnswer :=
  ⟨.accept4, some fd⟩ :: ⟨.getPeerCred fd, some cr⟩ :: (t ++ socket.toList.map fun fd => ⟨.close fd, ()⟩)

variable {fd : Nat} {cr : Ucred} {socket : Option Nat}

theorem received_session : received (sessionOf fd cr t socket) = received t := by
  cases socket <;> simp [sessionOf, SocketAnswer.bytes]

theorem spent_session : spent (sessionOf fd cr t socket) = spent t := by
  cases socket <;> simp [sessionOf, SocketAnswer.charge]

theorem waited_session : waited (sessionOf fd cr t socket) = waited t := by
  cases socket <;> simp [sessionOf, SocketAnswer.wait]

theorem sends_session : sends (sessionOf fd cr t socket) = sends t := by
  cases socket <;> simp [sessionOf, sends]

theorem closes_session : closedSockets (sessionOf fd cr t socket) = closedSockets t ++ socket.toList := by
  cases socket <;> simp [sessionOf, closedSockets]

theorem mem_session {e : SocketAnswer} (h : e ∈ t) : e ∈ sessionOf fd cr t socket := by
  simp [sessionOf, h]

theorem misses_session (h : Misses t) : Misses (sessionOf fd cr t socket) := by
  unfold Misses
  rw [spent_session, received_session]
  rcases h with ⟨e, he, hfails⟩ | hrest
  · exact .inl ⟨e, mem_session he, hfails⟩
  · exact .inr hrest

/-- A request that came is acted on, or nothing is done. -/
theorem session_acts (h : Session E s t s') :
    (∃ q fd cr context, Encodes q (received t) ∧ ActedOn E s t q fd cr context s') ∨ (s' = s ∧ Misses t) := by
  have haccepted : ∀ {fd : Nat} {cr : Ucred} {t : List SocketAnswer} {socket : Option Nat},
      (⟨.accept4, some fd⟩ : SocketAnswer) ∈ sessionOf fd cr t socket := by simp
  have hknown : ∀ {fd : Nat} {cr : Ucred} {t : List SocketAnswer} {socket : Option Nat},
      (⟨.getPeerCred fd, some cr⟩ : SocketAnswer) ∈ sessionOf fd cr t socket := by simp
  cases h with
  | none => exact .inr ⟨rfl, .inl ⟨_, List.mem_cons_self, rfl⟩⟩
  | unknown fd => exact .inr ⟨rfl, .inl ⟨_, List.mem_cons_of_mem _ List.mem_cons_self, rfl⟩⟩
  | @served fd cr t served h =>
    cases h.outcome with
    | refused hsends hreplies hmisses => exact .inr ⟨rfl, misses_session hmisses⟩
    | @silent q context hencodes hreply hcontext hsends =>
      refine .inl ⟨q, fd, cr, context, ?_, haccepted, hknown, mem_session hcontext, ?_, ?_⟩
      · rwa [received_session]
      · rw [hreply, if_neg Bool.false_ne_true]
      · rw [sends_session, hsends]
        exact fun reply hmem => absurd hmem List.not_mem_nil
    | @replied q context hencodes hreply hcontext hheld hsends =>
      refine .inl ⟨q, fd, cr, context, ?_, haccepted, hknown, mem_session hcontext, ?_, ?_⟩
      · rwa [received_session]
      · rw [hreply, if_pos rfl]
      · rw [sends_session, hsends, hreply, if_pos rfl]
        exact fun reply => List.mem_singleton.1
    | @released q context hencodes hreply hcontext hreleased hsends =>
      refine .inl ⟨q, fd, cr, context, ?_, haccepted, hknown, mem_session hcontext, ?_, ?_⟩
      · rwa [received_session]
      · rw [hreply, if_pos rfl]
      · rw [sends_session, hsends]
        exact fun reply hmem => absurd hmem List.not_mem_nil

end SocketRequestsAux

variable {E : PropertyEnv} {s : PropertyService} {t : List SocketAnswer}

/-- However the bytes of a connection come, and whatever the calls on it are answered: the property service acts on the request that
they spell, for the peer they are from, and answers with what came of it; or it leaves the properties as they were, and then a call failed,
the time was over, or the bytes are no request. A request that comes in whole, in any pieces, in time, is acted on. -/
theorem set_request_delivered {r : Except Empty PropertyService} (h : Transcript (s.handlePropertySetFd E) t r) :
    ∃ s', r = .ok s' ∧
      ((∃ q fd cr context, Encodes q (received t) ∧ ActedOn E s t q fd cr context s') ∨ (s' = s ∧ Misses t)) ∧
      ∀ q stream, Encodes q stream → received t <+: stream → (∀ e ∈ t, SocketAnswer.fails e = false) →
        spent t < kDefaultSocketTimeout → received t = stream ∧ ∃ fd cr context, ActedOn E s t q fd cr context s' := by
  obtain ⟨s', rfl, hsession⟩ := transcript_session h
  have hacts := session_acts hsession
  refine ⟨s', rfl, hacts, fun q stream hstream hbegins hfails hspent => ?_⟩
  rcases hacts with ⟨q', fd, cr, context, hencodes, hacted⟩ | ⟨-, ⟨e, he, hfail⟩ | hover | hnone⟩
  · obtain ⟨rfl, heq⟩ := encodes_prefix_free hencodes hstream hbegins
    exact ⟨heq, fd, cr, context, hacted⟩
  · rw [hfails e he] at hfail
    cases hfail
  · omega
  · exact absurd hbegins (hnone q stream hstream)

/-- A peer whose bytes come in pieces, each three milliseconds after the last. -/
def inPieces : (op : SocketCall) → List (List UInt8) → op.Ans × List (List UInt8)
  | .accept4, pieces => (some 7, pieces)
  | .getPeerCred _, pieces => (some ⟨310, 1000, 1000⟩, pieces)
  | .poll _ timeoutMs, pieces => (if pieces = [] then (.timeout, nanosOf timeoutMs) else (.ready, nanosOf 3), pieces)
  | .recv _ _, [] => ([], [])
  | .recv _ size, piece :: pieces => (piece, if piece.drop size = [] then pieces else piece.drop size :: pieces)
  | .getpeercon _, pieces => (some "u:r:shell:s0", pieces)
  | .send _ _, pieces => ((), pieces)
  | .close _, pieces => ((), pieces)

/-- A request that comes in four pieces, which do not end where its fields do. -/
def debugRequest : List (List UInt8) :=
  [[1, 0], [2, 0, 5, 0, 0], [0, 100, 98, 103], [46, 97, 2, 0, 0, 0, 111, 107]]

theorem set_request_delivered_pieces :
    ∃ t s', received t = debugRequest.flatten ∧ s'.find? "dbg.a" = some "ok" ∧
      ∃ fd cr context, ActedOn allowAll {} t ⟨"dbg.a", "ok", true⟩ fd cr context s' := by
  obtain ⟨t, hnoted, ht⟩ := transcript_record inPieces (PropertyService.handlePropertySetFd allowAll {}) (debugRequest, [])
  obtain ⟨s', hr, -, hwhole⟩ := set_request_delivered ht
  have hencodes : Encodes ⟨"dbg.a", "ok", true⟩ debugRequest.flatten :=
    Encodes.setprop2 (show [100, 98, 103, 46, 97].length ≤ _ by decide) (show [111, 107].length ≤ _ by decide)
  rw [List.nil_append] at hnoted
  subst hnoted
  obtain ⟨hall, hacted⟩ := hwhole _ _ hencodes (by decide) (by decide) (by decide)
  refine ⟨_, s', hall, ?_, hacted⟩
  have hfind : (((PropertyService.handlePropertySetFd allowAll {}).run (noting inPieces) (debugRequest, [])).1.toOption.bind
      (·.find? "dbg.a")) = some "ok" := by decide
  rw [hr] at hfind
  exact hfind

/-! ## Replies -/

namespace SocketRequestsAux

variable {E : PropertyEnv} {s s' : PropertyService} {t : List SocketAnswer} {fd : Nat}

/-- `PropertySet` neither replies nor queues a message. -/
theorem propertySet_frame (E : PropertyEnv) (name value : String) (s : PropertyService) :
    (s.propertySet E name value).2.2.socketEvents = s.socketEvents ∧
      (s.propertySet E name value).2.2.pendingControlMessages = s.pendingControlMessages := by
  have hstored : ∀ s : PropertyService, (s.propertyStored E name value).socketEvents = s.socketEvents ∧
      (s.propertyStored E name value).pendingControlMessages = s.pendingControlMessages := by
    intro s
    unfold PropertyService.propertyStored PropertyService.propertyChanged
    dsimp only
    repeat' split
    all_goals exact ⟨rfl, rfl⟩
  unfold PropertyService.propertySet
  repeat' split
  all_goals first | exact ⟨rfl, rfl⟩ | exact hstored _

/-- What a call does with the socket it is given. -/
inductive SocketUse (fd : Nat) : Bool → List SocketEvent → List PendingControlMessage → Prop
  | kept {pending : List PendingControlMessage} (h : ∀ m ∈ pending, m.fd = none) : SocketUse fd false [] pending
  | queued {m : PendingControlMessage} (h : m.fd = some fd) : SocketUse fd true [] [m]
  | overflown : SocketUse fd true [.reply fd .errorHandleControlMessage, .close fd] []

theorem sendControlMessage_socket (E : PropertyEnv) (msg name : String) (pid : Nat) (socket : Option Nat) (s : PropertyService)
    (fd : Nat) (hsocket : socket = none ∨ socket = some fd) :
    ∃ events pending,
      (s.sendControlMessage E msg name pid socket).2.2.socketEvents = s.socketEvents ++ events ∧
      (s.sendControlMessage E msg name pid socket).2.2.pendingControlMessages = s.pendingControlMessages ++ pending ∧
      SocketUse fd (socket.isSome && (s.acceptMessages && decide (E.vendorApi > apiQ))) events pending := by
  unfold PropertyService.sendControlMessage queueControlMessage
  cases s.acceptMessages with
  | false => exact ⟨[], [], by simp, by simp, by simpa using .kept (by simp)⟩
  | true =>
    by_cases hfull : s.pendingControlMessages.length > 100
    · by_cases hlater : E.vendorApi > apiQ
      · rcases hsocket with rfl | rfl
        · exact ⟨[], [], by simp [hfull], by simp [hfull], by simpa using .kept (by simp)⟩
        · exact ⟨_, [], by simp [hfull, hlater]; rfl, by simp [hfull, hlater], by simpa [hlater] using .overflown⟩
      · exact ⟨[], [], by simp [hfull, hlater], by simp [hfull, hlater], by simpa [hlater] using .kept (by simp)⟩
    · by_cases hlater : E.vendorApi > apiQ
      · rcases hsocket with rfl | rfl
        · exact ⟨[], _, by simp [hfull], by simp [hfull]; rfl, by simpa using .kept (by simp)⟩
        · exact ⟨[], _, by simp [hfull, hlater], by simp [hfull, hlater]; rfl, by simpa [hlater] using .queued rfl⟩
      · exact ⟨[], _, by simp [hfull, hlater], by simp [hfull, hlater]; rfl, by simpa [hlater] using .kept (by simp)⟩

/-- `HandlePropertySet` keeps to the socket it is given, and that goes with a message, or is answered and closed, or stays. -/
theorem handlePropertySet_socket (E : PropertyEnv) (name value context : String) (cr : Ucred) (socket : Option Nat)
    (s : PropertyService) (fd : Nat) (hsocket : socket = none ∨ socket = some fd) :
    ∃ events pending,
      (s.handlePropertySet E name value context cr socket).2.2.socketEvents = s.socketEvents ++ events ∧
      (s.handlePropertySet E name value context cr socket).2.2.pendingControlMessages = s.pendingControlMessages ++ pending ∧
      SocketUse fd (socket.isSome && s.releases E name value context) events pending := by
  cases hcheck : checkPermissions E name value context with
  | mk result text =>
    by_cases hsend : result = .success ∧ startsWith name "ctl." = true
    · obtain ⟨rfl, hctl⟩ := hsend
      have hhandle : s.handlePropertySet E name value context cr socket =
          s.sendControlMessage E (substr name 4) value cr.pid socket := by
        unfold PropertyService.handlePropertySet
        rw [hcheck]
        dsimp only
        rw [if_pos hctl]
      have hreleases : s.releases E name value context = (s.acceptMessages && decide (E.vendorApi > apiQ)) := by
        simp [PropertyService.releases, hcheck, hctl]
      rw [hhandle, hreleases]
      exact sendControlMessage_socket E _ _ _ _ s fd hsocket
    · have hreleases : s.releases E name value context = false := by
        rw [PropertyService.releases, hcheck]
        by_cases hresult : result = .success
        · have hctl : startsWith name "ctl." = false := by simpa [hresult] using hsend
          simp [hctl]
        · simp [hresult]
      have hframe : (s.handlePropertySet E name value context cr socket).2.2.socketEvents = s.socketEvents ∧
          (s.handlePropertySet E name value context cr socket).2.2.pendingControlMessages = s.pendingControlMessages := by
        unfold PropertyService.handlePropertySet
        rw [hcheck]
        split
        · next heq =>
          obtain ⟨rfl, -⟩ := Prod.mk.inj heq
          rw [if_neg fun hctl => hsend ⟨rfl, hctl⟩]
          split
          · exact ⟨rfl, rfl⟩
          · split
            · exact ⟨rfl, rfl⟩
            · exact propertySet_frame E name value s
        · exact ⟨rfl, rfl⟩
      rw [hreleases, Bool.and_false]
      exact ⟨[], [], by rw [hframe.1, List.append_nil], by rw [hframe.2, List.append_nil], .kept (by simp)⟩

/-- The calls of a session are about its connection. -/
theorem session_on {cr : Ucred} {served : Served} (h : Serves E s fd cr t served) :
    ∀ e ∈ sessionOf fd cr t served.1, e = ⟨.accept4, some fd⟩ ∨ SocketAnswer.connection e = some fd := by
  intro e he
  have hheld : served.1 = none ∨ served.1 = some fd := by
    cases h.outcome with
    | released => exact .inl rfl
    | _ => exact .inr rfl
  rcases List.mem_cons.1 he with rfl | he
  · exact .inl rfl
  · rcases List.mem_cons.1 he with rfl | he
    · exact .inr rfl
    · rcases List.mem_append.1 he with he | he
      · exact .inr (h.on e he)
      · obtain ⟨fd', hmem, rfl⟩ := List.mem_map.1 he
        rcases hheld with hnone | hsome
        · simp [hnone] at hmem
        · rw [hsome] at hmem
          obtain rfl := List.mem_singleton.1 hmem
          exact .inr rfl

/-- The replies to a connection, and what becomes of its socket. -/
theorem outcome_replies {cr : Ucred} {served : Served} (h : Outcome E s fd cr t served) :
    ∃ events pending, served.2.socketEvents = s.socketEvents ++ events ∧
      served.2.pendingControlMessages = s.pendingControlMessages ++ pending ∧ SocketUse fd served.1.isNone events pending ∧
      (sends t).length + (if served.1.isNone then 1 else 0) = if uint32Bytes propMsgSetprop <+: received t then 0 else 1 := by
  have hsilent : ∀ {q : SetRequest}, Encodes q (received t) → q.withReply = false → uint32Bytes propMsgSetprop <+: received t := by
    intro q hencodes hreply
    obtain ⟨more, hmore⟩ := encodes_command hencodes
    rw [hmore, hreply]
    exact setprop_prefix
  have hreplied : ∀ {q : SetRequest}, Encodes q (received t) → q.withReply = true →
      ¬ uint32Bytes propMsgSetprop <+: received t := by
    intro q hencodes hreply
    obtain ⟨more, hmore⟩ := encodes_command hencodes
    rw [hmore, hreply]
    exact not_setprop_prefix
  cases h with
  | refused hsends hreplies hmisses =>
    refine ⟨[], [], by simp, by simp, .kept (by simp), ?_⟩
    rw [hsends, List.length_map, ← hreplies]
    rfl
  | @silent q context hencodes hreply hcontext hsends =>
    obtain ⟨events, pending, hevents, hpending, huse⟩ := handlePropertySet_socket E q.name q.value context cr none s fd (.inl rfl)
    refine ⟨events, pending, hevents, hpending, huse, ?_⟩
    rw [hsends, if_pos (hsilent hencodes hreply)]
    rfl
  | @replied q context hencodes hreply hcontext hheld hsends =>
    obtain ⟨events, pending, hevents, hpending, huse⟩ := handlePropertySet_socket E q.name q.value context cr (some fd) s fd (.inr rfl)
    rw [hheld] at huse
    refine ⟨events, pending, hevents, hpending, huse, ?_⟩
    rw [hsends, if_neg (hreplied hencodes hreply)]
    rfl
  | @released q context hencodes hreply hcontext hreleased hsends =>
    obtain ⟨events, pending, hevents, hpending, huse⟩ := handlePropertySet_socket E q.name q.value context cr (some fd) s fd (.inr rfl)
    rw [hreleased] at huse
    refine ⟨events, pending, hevents, hpending, huse, ?_⟩
    rw [hsends, if_neg (hreplied hencodes hreply)]
    rfl

end SocketRequestsAux

/-- A reply on a connection. -/
def SocketEvent.isReply : SocketEvent → Bool
  | .reply _ _ => true
  | .close _ => false

/-- The descriptor of a connection. -/
def SocketEvent.fd : SocketEvent → Nat
  | .reply fd _ => fd
  | .close fd => fd

/-- A connection is closed once: by the property service, or when its message is dropped, or its descriptor goes with the one message to
init. A connection of a known peer is answered once in the same sense, unless its request is one that has no answer, and then it is
not answered. No other connection is touched. -/
theorem connection_answered_once {r : Except Empty PropertyService} (h : Transcript (s.handlePropertySetFd E) t r) {fd : Nat}
    (hfd : (⟨.accept4, some fd⟩ : SocketAnswer) ∈ t) :
    ∃ s' events pending, r = .ok s' ∧ s'.socketEvents = s.socketEvents ++ events ∧
      s'.pendingControlMessages = s.pendingControlMessages ++ pending ∧
      (∀ e ∈ t, e = ⟨.accept4, some fd⟩ ∨ SocketAnswer.connection e = some fd) ∧ (∀ event ∈ events, event.fd = fd) ∧
      (∀ m ∈ pending, m.fd = none ∨ m.fd = some fd) ∧
      (closedSockets t).length + events.countP (!·.isReply) + pending.countP (·.fd = some fd) = 1 ∧
      ∀ cr, (⟨.getPeerCred fd, some cr⟩ : SocketAnswer) ∈ t →
        (sends t).length + events.countP (·.isReply) + pending.countP (·.fd = some fd) =
          if uint32Bytes propMsgSetprop <+: received t then 0 else 1 := by
  obtain ⟨s', rfl, hsession⟩ := transcript_session h
  cases hsession with
  | none => simp at hfd
  | unknown fd' =>
    obtain rfl : fd = fd' := by simpa using hfd
    refine ⟨s, [], [], rfl, by simp, by simp, by simp [SocketAnswer.connection], by simp, by simp, by simp [closedSockets], fun cr hcr => ?_⟩
    simp at hcr
  | @served fd' cr t served hserves =>
    have hsession := session_on hserves
    obtain rfl : fd = fd' := by
      rcases hsession _ hfd with heq | hnone
      · cases heq
        rfl
      · cases hnone
    rw [sends_session, closes_session, received_session, hserves.closes, List.nil_append]
    obtain ⟨events, pending, hevents, hpending, huse, hreplies⟩ := outcome_replies hserves.outcome
    refine ⟨served.2, events, pending, rfl, hevents, hpending, hsession, ?_⟩
    cases hsocket : served.1 with
    | some held =>
      rw [hsocket] at huse hreplies
      cases huse with
      | kept hnone =>
        have hcount : pending.countP (·.fd = some fd) = 0 := by
          refine List.countP_eq_zero.2 fun m hm => ?_
          rw [hnone m hm]
          simp
        refine ⟨by simp, fun m hm => .inl (hnone m hm), by rw [hcount]; rfl, fun _ _ => ?_⟩
        rw [hcount, ← hreplies]
        rfl
    | none =>
      rw [hsocket] at huse hreplies
      cases huse with
      | queued hm =>
        refine ⟨by simp, by simp [hm], by simp [hm], fun _ _ => ?_⟩
        rw [← hreplies]
        simp [hm]
      | overflown =>
        refine ⟨by simp [SocketEvent.fd], by simp, by simp [SocketEvent.isReply], fun _ _ => ?_⟩
        rw [← hreplies]
        simp [SocketEvent.isReply]

/-- A control message that is queued takes its connection with it. -/
def controlRequest : List (List UInt8) :=
  [uint32Bytes propMsgSetprop2, stringBytes [99, 116, 108, 46, 115, 116, 97, 114, 116], stringBytes [97, 100, 98, 100]]

theorem connection_answered_once_control :
    ∃ (t : List SocketAnswer) (s' : PropertyService) (events : List SocketEvent) (pending : List PendingControlMessage),
      s'.socketEvents = events ∧ s'.pendingControlMessages = pending ∧
      (closedSockets t).length + events.countP (!·.isReply) + pending.countP (·.fd = some 7) = 1 ∧
      (sends t).length + events.countP (·.isReply) + pending.countP (·.fd = some 7) = 1 ∧ pending.length = 1 := by
  obtain ⟨t, hnoted, ht⟩ :=
    transcript_record inPieces (PropertyService.handlePropertySetFd allowAll { acceptMessages := true }) (controlRequest, [])
  rw [List.nil_append] at hnoted
  subst hnoted
  obtain ⟨s', events, pending, hr, hevents, hpending, -, -, -, hclosed, hreplied⟩ :=
    connection_answered_once ht (show (⟨.accept4, some 7⟩ : SocketAnswer) ∈ _ by decide)
  have honce := hreplied ⟨310, 1000, 1000⟩ (by decide)
  rw [if_neg (by decide)] at honce
  refine ⟨_, s', events, pending, hevents, hpending, hclosed, honce, ?_⟩
  have hlength : (((PropertyService.handlePropertySetFd allowAll { acceptMessages := true }).run (noting inPieces)
      (controlRequest, [])).1.toOption.map (·.pendingControlMessages.length)) = some 1 := by decide
  rw [hr] at hlength
  exact (congrArg List.length hpending).symm.trans (Option.some.inj hlength)

/-! ## Time -/

/-- No peer holds up the property service: it waits for a connection two seconds at most, one millisecond more, and one more for each byte
that it takes, whatever comes. It takes no more than the bytes of the longest request, in a bounded number of calls. -/
theorem connection_bounded {r : Except Empty PropertyService} (h : Transcript (s.handlePropertySetFd E) t r) :
    waited t ≤ nanosOf (kDefaultSocketTimeout + (received t).length + 1) ∧ (received t).length ≤ longestRequest ∧
      t.length ≤ kDefaultSocketTimeout + 2 * (received t).length + 7 := by
  obtain ⟨s', rfl, hsession⟩ := transcript_session h
  cases hsession with
  | none => decide
  | unknown fd => exact ⟨Nat.zero_le _, Nat.zero_le _, by simp⟩
  | @served fd cr t served hserves =>
    have hfew := hserves.few
    rw [waited_session, received_session]
    refine ⟨hserves.waits, hserves.bytes, ?_⟩
    have hclosed : served.1.toList.length ≤ 1 := by cases served.1 <;> simp
    simp only [List.length_cons, List.length_append, List.length_map]
    omega

/-- A peer that sends nothing is waited for as long as may be. -/
theorem connection_bounded_stalled :
    ∃ t, waited t = nanosOf kDefaultSocketTimeout ∧ waited t ≤ nanosOf (kDefaultSocketTimeout + (received t).length + 1) ∧
      (received t).length ≤ longestRequest ∧ t.length ≤ kDefaultSocketTimeout + 2 * (received t).length + 7 := by
  obtain ⟨t, hnoted, ht⟩ := transcript_record inPieces (PropertyService.handlePropertySetFd allowAll {}) ([], [])
  rw [List.nil_append] at hnoted
  subst hnoted
  exact ⟨_, by decide, connection_bounded ht⟩

end Innit
