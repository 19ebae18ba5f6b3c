import Innit.Lemmas.SocketReading

/-!
# A connection to the property socket

What comes of a connection, by its calls: which request the bytes spell, what is done with it, and what is sent and closed.
-/

namespace Innit

open Lib Lib.Prog

namespace SocketRequestsAux

open SocketProg

variable {t t' : List SocketAnswer} {fd timeoutMs left : Nat}

/-! ## A connection -/

/-- The calls after reading: asking who the peer is, and a reply. -/
def closing (fd : Nat) (asked : Option (Option String)) (replies : List PropResult) : List SocketAnswer :=
  asked.toList.map (fun context => ⟨.getpeercon fd, context⟩) ++ replies.map fun result => ⟨.send fd result, ()⟩

variable {asked : Option (Option String)} {replies : List PropResult}

/-- Nothing is taken after reading. -/
@[simp] theorem received_closing : received (closing fd asked replies) = [] := by
  simp [closing, received, SocketAnswer.bytes]

/-- Nor is there any wait. -/
@[simp] theorem waited_closing : waited (closing fd asked replies) = 0 := by
  simp [closing, waited, SocketAnswer.wait, Function.comp_def]

/-- Nor is time counted. -/
@[simp] theorem spent_closing : spent (closing fd asked replies) = 0 := by
  simp [closing, spent, SocketAnswer.charge, Function.comp_def]

/-- The replies of two runs of calls. -/
theorem sends_append : sends (t ++ t') = sends t ++ sends t' := List.filterMap_append

/-- The sockets closed in them. -/
theorem closes_append : closedSockets (t ++ t') = closedSockets t ++ closedSockets t' := List.filterMap_append

/-- The replies after reading. -/
theorem sends_closing : sends (closing fd asked replies) = replies.map (fd, ·) := by
  cases asked <;> simp [closing, sends]

/-- No socket is closed with them. -/
theorem closes_closing : closedSockets (closing fd asked replies) = [] := by
  cases asked <;> simp [closing, closedSockets]

/-- Reading is about its connection. -/
theorem connection_reads (h : ∀ e ∈ t, e.readsFrom fd = true) {e : SocketAnswer} (he : e ∈ t) : e.connection = some fd := by
  have hreads := h e he
  obtain ⟨op, a⟩ := e
  cases op <;> simp_all [SocketAnswer.readsFrom, SocketAnswer.connection]

/-- So are the calls after it. -/
theorem connection_closing {e : SocketAnswer} (he : e ∈ closing fd asked replies) : e.connection = some fd := by
  rcases List.mem_append.1 he with he | he
  · obtain ⟨context, -, rfl⟩ := List.mem_map.1 he
    rfl
  · obtain ⟨result, -, rfl⟩ := List.mem_map.1 he
    rfl

/-- Reading sends nothing. -/
theorem sends_reads (h : ∀ e ∈ t, e.readsFrom fd = true) : sends t = [] := by
  refine List.filterMap_eq_nil_iff.2 fun e he => ?_
  have hreads := h e he
  obtain ⟨op, a⟩ := e
  cases op <;> simp_all [SocketAnswer.readsFrom]

/-- It closes nothing. -/
theorem closes_reads (h : ∀ e ∈ t, e.readsFrom fd = true) : closedSockets t = [] := by
  refine List.filterMap_eq_nil_iff.2 fun e he => ?_
  have hreads := h e he
  obtain ⟨op, a⟩ := e
  cases op <;> simp_all [SocketAnswer.readsFrom]

variable {E : PropertyEnv} {s : PropertyService} {cr : Ucred}

/-- What comes of a connection. -/
inductive Outcome (E : PropertyEnv) (s : PropertyService) (fd : Nat) (cr : Ucred) (t : List SocketAnswer) : Served → Prop
  | refused {replies : List PropResult} (hsends : sends t = replies.map (fd, ·))
      (hreplies : replies.length = if uint32Bytes propMsgSetprop <+: received t then 0 else 1) (hmisses : Misses t) :
      Outcome E s fd cr t (some fd, s)
  | silent {q : SetRequest} {context : String} (hencodes : Encodes q (received t)) (hreply : q.withReply = false)
      (hcontext : (⟨.getpeercon fd, some context⟩ : SocketAnswer) ∈ t) (hsends : sends t = []) :
      Outcome E s fd cr t (some fd, (s.handlePropertySet E q.name q.value context cr none).2.2)
  | replied {q : SetRequest} {context : String} (hencodes : Encodes q (received t)) (hreply : q.withReply = true)
      (hcontext : (⟨.getpeercon fd, some context⟩ : SocketAnswer) ∈ t) (hheld : s.releases E q.name q.value context = false)
      (hsends : sends t = [(fd, (s.handlePropertySet E q.name q.value context cr (some fd)).1)]) :
      Outcome E s fd cr t (some fd, (s.handlePropertySet E q.name q.value context cr (some fd)).2.2)
  | released {q : SetRequest} {context : String} (hencodes : Encodes q (received t)) (hreply : q.withReply = true)
      (hcontext : (⟨.getpeercon fd, some context⟩ : SocketAnswer) ∈ t) (hreleased : s.releases E q.name q.value context = true)
      (hsends : sends t = []) :
      Outcome E s fd cr t (none, (s.handlePropertySet E q.name q.value context cr (some fd)).2.2)

/-- What a connection does. -/
structure Serves (E : PropertyEnv) (s : PropertyService) (fd : Nat) (cr : Ucred) (t : List SocketAnswer) (served : Served) : Prop where
  on : ∀ e ∈ t, SocketAnswer.connection e = some fd
  closes : closedSockets t = []
  waits : waited t ≤ nanosOf (kDefaultSocketTimeout + (received t).length + 1)
  bytes : (received t).length ≤ longestRequest
  few : t.length ≤ kDefaultSocketTimeout + 2 * (received t).length + 4
  outcome : Outcome E s fd cr t served

/-- Reading, and what follows on it. -/
theorem serves_closing (asked : Option (Option String)) (replies : List PropResult) {served : Served}
    (hreads : Reads fd kDefaultSocketTimeout t left)
    (hwaits : waited t + nanosOf left ≤ nanosOf (kDefaultSocketTimeout + (received t).length + 1))
    (hfew : t.length + left ≤ kDefaultSocketTimeout + 2 * (received t).length + 2) (hbytes : (received t).length ≤ longestRequest)
    (hreplies : replies.length ≤ 1) (houtcome : Outcome E s fd cr (t ++ closing fd asked replies) served) :
    Serves E s fd cr (t ++ closing fd asked replies) served where
  on := fun e he => (List.mem_append.1 he).elim (connection_reads hreads.calls) connection_closing
  closes := by rw [closes_append, closes_reads hreads.calls, closes_closing, List.nil_append]
  waits := by
    rw [waited_append, waited_closing, received_append, received_closing, List.append_nil]
    exact (Nat.le_add_right _ _).trans hwaits
  bytes := by simpa using hbytes
  few := by
    have hasked : asked.toList.length ≤ 1 := by cases asked <;> simp
    simp only [List.length_append, received_append, closing, List.length_map]
    omega
  outcome := houtcome

/-- A reply is sent on a socket that is still there. -/
theorem transcript_sendUint32 {socket : Option Nat} {value : PropResult} {r : Except Empty Unit}
    (h : Transcript (sendUint32 socket value) t r) : t = socket.toList.map (fun fd => ⟨.send fd value, ()⟩) ∧ r = .ok () := by
  cases socket with
  | none => exact transcript_pure h
  | some fd =>
    obtain ⟨⟨⟩, rfl, rfl⟩ := transcript_lift h
    exact ⟨rfl, rfl⟩

/-- A refusal is sent, and the socket kept. -/
theorem transcript_refusal {result : PropResult} {r : Except Empty Served}
    (h : Transcript (sendUint32 (some fd) result >>= fun _ => pure (some fd, s)) t r) :
    t = [⟨.send fd result, ()⟩] ∧ r = .ok (some fd, s) := by
  obtain ⟨⟨⟩, t₁, t₂, rfl, hsend, h₁⟩ := transcript_seq h
  obtain ⟨rfl, -⟩ := transcript_sendUint32 hsend
  obtain ⟨rfl, rfl⟩ := transcript_pure h₁
  exact ⟨rfl, rfl⟩

/-! ## Streams that are no request -/

/-- A number has four bytes. -/
theorem length_uint32Bytes (n : Nat) : (uint32Bytes n).length = 4 := rfl

/-- A request begins with the number of its kind. -/
theorem encodes_command {q : SetRequest} {stream : List UInt8} (h : Encodes q stream) :
    ∃ more, stream = uint32Bytes (if q.withReply then propMsgSetprop2 else propMsgSetprop) ++ more := by
  cases h with
  | setprop hname hvalue => exact ⟨_, rfl⟩
  | setprop2 hname hvalue => exact ⟨_, rfl⟩

/-- Another number is at the start of no request. -/
theorem not_request_command {bytes : List UInt8} (hfour : bytes.length = 4) (hsetprop : uint32Of bytes ≠ propMsgSetprop)
    (hsetprop2 : uint32Of bytes ≠ propMsgSetprop2) {q : SetRequest} {stream : List UInt8} (h : Encodes q stream) :
    ¬ bytes <+: stream := by
  intro hbegins
  obtain ⟨more, rfl⟩ := encodes_command h
  rw [← List.append_nil bytes] at hbegins
  obtain ⟨rfl, -⟩ := prefix_parts hbegins hfour
  cases hreply : q.withReply
  · rw [hreply] at hsetprop
    exact hsetprop (uint32Of_bytes (by decide))
  · rw [hreply] at hsetprop2
    exact hsetprop2 (uint32Of_bytes (by decide))

/-- What begins a request in two texts continues as one. -/
theorem encodes_setprop2 {more : List UInt8} {q : SetRequest} {stream : List UInt8} (h : Encodes q stream)
    (hbegins : uint32Bytes propMsgSetprop2 ++ more <+: stream) :
    ∃ name value : List UInt8, name.length ≤ 0xffff ∧ value.length ≤ 0xffff ∧ more <+: stringBytes name ++ stringBytes value := by
  cases h with
  | setprop hname hvalue =>
    obtain ⟨heq, -⟩ := prefix_parts hbegins rfl
    exact absurd heq (by decide)
  | setprop2 hname hvalue => exact ⟨_, _, hname, hvalue, (prefix_parts hbegins rfl).2⟩

/-- A length that is refused begins no text. -/
theorem not_text_huge {bytes more chars rest : List UInt8} (hfour : bytes.length = 4) (hhuge : 0xffff < uint32Of bytes)
    (hlen : chars.length ≤ 0xffff) : ¬ bytes ++ more <+: stringBytes chars ++ rest := by
  intro hbegins
  rw [stringBytes, List.append_assoc] at hbegins
  obtain ⟨rfl, -⟩ := prefix_parts hbegins hfour
  rw [uint32Of_bytes (by omega)] at hhuge
  omega

/-- A text that begins two texts is the first of them. -/
theorem text_prefix {chars chars' more rest : List UInt8} (hlen : chars.length ≤ 0xffff) (hlen' : chars'.length ≤ 0xffff)
    (hbegins : stringBytes chars ++ more <+: stringBytes chars' ++ rest) : chars = chars' ∧ more <+: rest := by
  rw [stringBytes, stringBytes, List.append_assoc, List.append_assoc] at hbegins
  obtain ⟨hbytes, hbegins⟩ := prefix_parts hbegins rfl
  have hlengths : chars.length = chars'.length := by
    rw [← uint32Of_bytes (show chars.length < 2 ^ 32 by omega), hbytes, uint32Of_bytes (by omega)]
  exact prefix_parts hbegins hlengths

/-- A request of the first kind is one in fixed buffers. -/
theorem setprop_prefix {bytes : List UInt8} : uint32Bytes propMsgSetprop <+: uint32Bytes propMsgSetprop ++ bytes := ⟨bytes, rfl⟩

/-- One of the second kind is not of the first. -/
theorem not_setprop_prefix {bytes : List UInt8} : ¬ uint32Bytes propMsgSetprop <+: uint32Bytes propMsgSetprop2 ++ bytes := by
  intro hbegins
  rw [← List.append_nil (uint32Bytes propMsgSetprop)] at hbegins
  obtain ⟨heq, -⟩ := prefix_parts hbegins rfl
  exact absurd heq (by decide)

/-! ## The two kinds of requests -/

/-- A failure while reading, with what was read before it. -/
theorem misses_of_givesUp (h : GivesUp fd kDefaultSocketTimeout t left) (t' : List SocketAnswer) : Misses (t ++ t') := by
  rcases h.reason with ⟨e, he, hfails⟩ | hspent
  · exact .inl ⟨e, List.mem_append_left _ he, hfails⟩
  · refine .inr (.inl ?_)
    rw [spent_append]
    omega

/-- A connection without a reply that gives up. -/
theorem serves_silent {E : PropertyEnv} (h : GivesUp fd kDefaultSocketTimeout t left) (hbytes : (received t).length ≤ longestRequest)
    (hkind : uint32Bytes propMsgSetprop <+: received t) : Serves E s fd cr t (some fd, s) := by
  rw [← List.append_nil t]
  refine serves_closing none [] h.toReads h.waits h.few hbytes (Nat.zero_le _) ?_
  have hsends : sends (t ++ closing fd none []) = List.map (fd, ·) [] := by
    rw [sends_append, sends_reads h.calls, sends_closing, List.nil_append]
  exact .refused hsends (by simp [hkind]) (misses_of_givesUp h _)

/-- A connection that gives up and says so. -/
theorem serves_refusal {E : PropertyEnv} (h : GivesUp fd kDefaultSocketTimeout t left) (hbytes : (received t).length ≤ longestRequest)
    (hkind : ¬ uint32Bytes propMsgSetprop <+: received t) (result : PropResult) :
    Serves E s fd cr (t ++ [⟨.send fd result, ()⟩]) (some fd, s) := by
  refine serves_closing none [result] h.toReads h.waits h.few hbytes (Nat.le_refl _) ?_
  have hsends : sends (t ++ closing fd none [result]) = List.map (fd, ·) [result] := by
    rw [sends_append, sends_reads h.calls, sends_closing, List.nil_append]
  exact .refused hsends (by simp [hkind]) (misses_of_givesUp h _)

/-- Reading is complete, and the calls after it are made. -/
theorem serves_taken (asked : Option (Option String)) (replies : List PropResult) {served : Served}
    (h : Takes fd kDefaultSocketTimeout t left) (hbytes : (received t).length ≤ longestRequest)
    (hreplies : replies.length ≤ 1)
    (houtcome : sends (t ++ closing fd asked replies) = replies.map (fd, ·) → received (t ++ closing fd asked replies) = received t →
      Outcome E s fd cr (t ++ closing fd asked replies) served) :
    Serves E s fd cr (t ++ closing fd asked replies) served := by
  have hfew := h.few
  refine serves_closing asked replies h.toReads (h.waits.trans (nanosOf_mono (by omega))) (by omega) hbytes hreplies (houtcome ?_ ?_)
  · rw [sends_append, sends_reads h.calls, sends_closing, List.nil_append]
  · rw [received_append, received_closing, List.append_nil]

/-- What comes of a request in fixed buffers. -/
theorem transcript_handleSetprop {before : List SocketAnswer} (hbefore : Takes fd kDefaultSocketTimeout before timeoutMs)
    (hcmd : received before = uint32Bytes propMsgSetprop) {r : Except Empty Served}
    (h : Transcript (s.handleSetprop E fd cr timeoutMs) t r) : ∃ served, r = .ok served ∧ Serves E s fd cr (before ++ t) served := by
  have hkind : ∀ t', uint32Bytes propMsgSetprop <+: received (before ++ t') := by
    intro t'
    rw [received_append, hcmd]
    exact setprop_prefix
  obtain ⟨⟨propName, left⟩, t₁, t₂, rfl, hname, h₁⟩ := transcript_seq h
  obtain ⟨_, ⟨heq, hlen, htakes⟩ | ⟨heq, hlen, hgives⟩⟩ := transcript_recvFully hname
  · cases heq
    obtain ⟨⟨propValue, left'⟩, t₃, t₄, rfl, hvalue, h₂⟩ := transcript_seq h₁
    obtain ⟨_, ⟨heq, hlen', htakes'⟩ | ⟨heq, hlen', hgives⟩⟩ := transcript_recvFully hvalue
    · cases heq
      obtain ⟨context, t₅, rfl, h₃⟩ := transcript_lift_bind h₂
      have hall := hbefore.append (htakes.append htakes')
      have hreceived : received (before ++ (t₁ ++ t₃)) = uint32Bytes propMsgSetprop ++ (received t₁ ++ received t₃) := by
        rw [received_append, received_append, hcmd]
      have hbytes : (received (before ++ (t₁ ++ t₃))).length ≤ longestRequest := by
        rw [hreceived, List.length_append, List.length_append, hlen, hlen']
        decide
      cases context with
      | none =>
        obtain ⟨rfl, rfl⟩ := transcript_pure h₃
        refine ⟨_, rfl, ?_⟩
        rw [← List.append_assoc t₁, ← List.append_assoc]
        refine serves_taken (some none) [] hall hbytes (Nat.zero_le _) fun hsends _ => ?_
        refine .refused hsends ?_ (.inl ⟨⟨.getpeercon fd, none⟩, by simp [closing], rfl⟩)
        rw [if_pos (by rw [List.append_assoc]; exact hkind _)]
        rfl
      | some context =>
        obtain ⟨rfl, rfl⟩ := transcript_pure h₃
        refine ⟨_, rfl, ?_⟩
        rw [← List.append_assoc t₁, ← List.append_assoc]
        refine serves_taken (some (some context)) [] hall hbytes (Nat.zero_le _) fun hsends hsame => ?_
        have hencodes := Encodes.setprop hlen hlen'
        rw [← hreceived, ← hsame] at hencodes
        have hcontext : (⟨.getpeercon fd, some context⟩ : SocketAnswer) ∈
            before ++ (t₁ ++ t₃) ++ closing fd (some (some context)) [] := by simp [closing]
        have houtcome := @Outcome.silent E s fd cr _ _ _ hencodes rfl hcontext hsends
        dsimp only at houtcome
        exact houtcome
    · cases heq
      obtain ⟨rfl, rfl⟩ := transcript_pure h₂
      refine ⟨_, rfl, ?_⟩
      rw [List.append_nil]
      refine serves_silent (hbefore.givesUp (htakes.givesUp hgives)) ?_ (hkind _)
      rw [received_append, received_append, List.length_append, List.length_append, hcmd, length_uint32Bytes, hlen]
      have hlt : (received t₃).length < 92 := hlen'
      have hmax : propNameMax = 32 := rfl
      unfold longestRequest
      omega
  · cases heq
    obtain ⟨rfl, rfl⟩ := transcript_pure h₁
    refine ⟨_, rfl, ?_⟩
    rw [List.append_nil]
    refine serves_silent (hbefore.givesUp hgives) ?_ (hkind _)
    rw [received_append, List.length_append, hcmd, length_uint32Bytes]
    have hlt : (received t₁).length < 32 := hlen
    unfold longestRequest
    omega

/-- A request is not longer than the longest one. -/
theorem encodes_length {q : SetRequest} {stream : List UInt8} (h : Encodes q stream) : stream.length ≤ longestRequest := by
  cases h with
  | setprop hname hvalue =>
    rw [List.length_append, List.length_append, length_uint32Bytes, hname, hvalue]
    decide
  | setprop2 hname hvalue =>
    simp only [List.length_append, stringBytes, length_uint32Bytes]
    unfold longestRequest
    omega

/-- A request in two texts that has come is acted on, and answered unless its socket is taken away. -/
theorem serves_acted {before : List SocketAnswer} (hall : Takes fd kDefaultSocketTimeout before left) {q : SetRequest}
    (hencodes : Encodes q (received before)) (hreply : q.withReply = true) {context text : String} {result : PropResult}
    {s' : PropertyService} (hset : s.handlePropertySet E q.name q.value context cr (some fd) = (result, text, s'))
    {socket : Option Nat} (hsocket : socket = if s.releases E q.name q.value context then none else some fd) :
    Serves E s fd cr (before ++ ⟨.getpeercon fd, some context⟩ :: socket.toList.map fun fd => ⟨.send fd result, ()⟩)
      (socket, s') := by
  obtain ⟨rfl, rfl⟩ : (s.handlePropertySet E q.name q.value context cr (some fd)).1 = result ∧
      (s.handlePropertySet E q.name q.value context cr (some fd)).2.2 = s' := by
    rw [hset]
    exact ⟨rfl, rfl⟩
  cases hreleases : s.releases E q.name q.value context with
  | true =>
    obtain rfl : socket = none := by rw [hsocket, hreleases, if_pos rfl]
    refine serves_taken (some (some context)) [] hall (encodes_length hencodes) (Nat.zero_le _) fun hsends hsame => ?_
    rw [← hsame] at hencodes
    exact .released hencodes hreply (List.mem_append_right _ List.mem_cons_self) hreleases hsends
  | false =>
    obtain rfl : socket = some fd := by rw [hsocket, hreleases, if_neg Bool.false_ne_true]
    refine serves_taken (some (some context)) [_] hall (encodes_length hencodes) (Nat.le_refl _) fun hsends hsame => ?_
    rw [← hsame] at hencodes
    exact .replied hencodes hreply (List.mem_append_right _ List.mem_cons_self) hreleases hsends

/-- Nothing more is read, and a reply says that. -/
theorem serves_answered (asked : Option (Option String)) {before : List SocketAnswer} (hall : Takes fd kDefaultSocketTimeout before left)
    (hbytes : (received before).length ≤ longestRequest) (hkind : ¬ uint32Bytes propMsgSetprop <+: received before)
    (hmisses : asked = some none ∨ ∀ q stream, Encodes q stream → ¬ received before <+: stream) (result : PropResult) :
    Serves E s fd cr (before ++ closing fd asked [result]) (some fd, s) := by
  refine serves_taken asked [result] hall hbytes (Nat.le_refl _) fun hsends hsame => .refused hsends ?_ ?_
  · rw [hsame, if_neg hkind]
    rfl
  · rcases hmisses with rfl | hnone
    · exact .inl ⟨⟨.getpeercon fd, none⟩, by simp [closing], rfl⟩
    · exact .inr (.inr (hsame ▸ hnone))

/-- The length of a name is refused. -/
theorem refused_name {before : List SocketAnswer} (hbefore : Takes fd kDefaultSocketTimeout before timeoutMs)
    (hcmd : received before = uint32Bytes propMsgSetprop2) (htakes : Takes fd timeoutMs t left) (hfour : (received t).length = 4)
    (hhuge : 0xffff < uint32Of (received t)) (result : PropResult) :
    Serves E s fd cr (before ++ t ++ [⟨.send fd result, ()⟩]) (some fd, s) := by
  have hreceived : received (before ++ t) = uint32Bytes propMsgSetprop2 ++ received t := by rw [received_append, hcmd]
  refine serves_answered none (hbefore.append htakes) ?_ ?_ (.inr fun q stream hq hbegins => ?_) result
  · rw [hreceived, List.length_append, length_uint32Bytes, hfour]
    decide
  · rw [hreceived]
    exact not_setprop_prefix
  · rw [hreceived] at hbegins
    obtain ⟨name', value', hlen, -, hmore⟩ := encodes_setprop2 hq hbegins
    rw [← List.append_nil (received t)] at hmore
    exact not_text_huge hfour hhuge hlen hmore

/-- What has come of a request in two texts when its name has. -/
structure NameRead (fd : Nat) (before : List SocketAnswer) (name : List UInt8) (left : Nat) : Prop where
  takes : Takes fd kDefaultSocketTimeout before left
  received_eq : received before = uint32Bytes propMsgSetprop2 ++ stringBytes name
  length_le : name.length ≤ 0xffff

/-- It is not a request in fixed buffers. -/
theorem NameRead.kind {before : List SocketAnswer} {name : List UInt8} (h : NameRead fd before name left) (t' : List SocketAnswer) :
    ¬ uint32Bytes propMsgSetprop <+: received (before ++ t') := by
  rw [received_append, h.received_eq, List.append_assoc]
  exact not_setprop_prefix

/-- With a value, or the beginning of one, it is no longer than the longest request. -/
theorem NameRead.length_received {before t' : List SocketAnswer} {name : List UInt8} (h : NameRead fd before name left)
    (hlen : (received t').length ≤ 4 + 0xffff) : (received (before ++ t')).length ≤ longestRequest := by
  have hname := h.length_le
  simp only [received_append, h.received_eq, List.length_append, length_uint32Bytes, stringBytes]
  unfold longestRequest
  omega

/-- The length of a value is refused. -/
theorem NameRead.refused_value {before : List SocketAnswer} {name : List UInt8} {left' : Nat} (h : NameRead fd before name left)
    (htakes : Takes fd left t left') (hfour : (received t).length = 4) (hhuge : 0xffff < uint32Of (received t)) (result : PropResult) :
    Serves E s fd cr (before ++ t ++ [⟨.send fd result, ()⟩]) (some fd, s) := by
  refine serves_answered none (h.takes.append htakes) (h.length_received (by omega)) (h.kind _) (.inr fun q stream hq hbegins => ?_) result
  rw [received_append, h.received_eq, List.append_assoc] at hbegins
  obtain ⟨name', value', hlen', hlenv, hmore⟩ := encodes_setprop2 hq hbegins
  obtain ⟨rfl, hvalue'⟩ := text_prefix h.length_le hlen' hmore
  rw [← List.append_nil (received t), ← List.append_nil (stringBytes value')] at hvalue'
  exact not_text_huge hfour hhuge hlenv hvalue'

/-- The name and the value have come. -/
theorem NameRead.encodes {before : List SocketAnswer} {name value : List UInt8} (h : NameRead fd before name left)
    (hbytes : received t = stringBytes value) (hlen : value.length ≤ 0xffff) :
    Encodes ⟨textOf name, textOf value, true⟩ (received (before ++ t)) := by
  rw [received_append, h.received_eq, hbytes, List.append_assoc]
  exact .setprop2 h.length_le hlen

/-- What comes of a request in two texts. -/
theorem transcript_handleSetprop2 {before : List SocketAnswer} (hbefore : Takes fd kDefaultSocketTimeout before timeoutMs)
    (hcmd : received before = uint32Bytes propMsgSetprop2) {r : Except Empty Served}
    (h : Transcript (s.handleSetprop2 E fd cr timeoutMs) t r) : ∃ served, r = .ok served ∧ Serves E s fd cr (before ++ t) served := by
  obtain ⟨⟨name, left⟩, t₁, t₂, rfl, hname, h₁⟩ := transcript_seq h
  obtain ⟨_, _, heq, hread⟩ := transcript_recvString hname
  cases heq
  rw [← List.append_assoc]
  cases hread with
  | huge hfour hhuge htakes =>
    obtain ⟨rfl, rfl⟩ := transcript_refusal h₁
    exact ⟨_, rfl, refused_name hbefore hcmd htakes hfour hhuge _⟩
  | gaveUp hlen hgives =>
    obtain ⟨rfl, rfl⟩ := transcript_refusal h₁
    refine ⟨_, rfl, serves_refusal (hbefore.givesUp hgives) ?_ ?_ _⟩
    · rw [received_append, List.length_append, hcmd, length_uint32Bytes]
      unfold longestRequest
      omega
    · rw [received_append, hcmd]
      exact not_setprop_prefix
  | @text name _ hbytes hlen htakes =>
    have hnamed : NameRead fd (before ++ t₁) name left := ⟨hbefore.append htakes, by rw [received_append, hcmd, hbytes], hlen⟩
    obtain ⟨⟨value, left'⟩, t₃, t₄, rfl, hvalue, h₂⟩ := transcript_seq h₁
    obtain ⟨_, _, heq, hread⟩ := transcript_recvString hvalue
    cases heq
    rw [← List.append_assoc]
    cases hread with
    | huge hfour hhuge htakes =>
      obtain ⟨rfl, rfl⟩ := transcript_refusal h₂
      exact ⟨_, rfl, hnamed.refused_value htakes hfour hhuge _⟩
    | gaveUp hlen hgives =>
      obtain ⟨rfl, rfl⟩ := transcript_refusal h₂
      exact ⟨_, rfl, serves_refusal (hnamed.takes.givesUp hgives) (hnamed.length_received hlen) (hnamed.kind _) _⟩
    | @text value _ hbytes hlen htakes =>
      have hall := hnamed.takes.append htakes
      have hencodes := hnamed.encodes hbytes hlen
      obtain ⟨context, t₅, rfl, h₃⟩ := transcript_lift_bind h₂
      cases context with
      | none =>
        obtain ⟨rfl, rfl⟩ := transcript_refusal h₃
        exact ⟨_, rfl, serves_answered (some none) hall (encodes_length hencodes) (hnamed.kind _) (.inl rfl) _⟩
      | some context =>
        dsimp only at h₃
        generalize hset : s.handlePropertySet E (textOf name) (textOf value) context cr (some fd) = set at h₃
        obtain ⟨result, text, s'⟩ := set
        obtain ⟨⟨⟩, t₆, t₇, rfl, hsend, h₄⟩ := transcript_seq h₃
        obtain ⟨rfl, -⟩ := transcript_sendUint32 hsend
        obtain ⟨rfl, rfl⟩ := transcript_pure h₄
        rw [List.append_nil]
        exact ⟨_, rfl, serves_acted hall hencodes rfl hset rfl⟩

/-- What comes of a connection. -/
theorem transcript_handleConnection {r : Except Empty Served} (h : Transcript (s.handleConnection E fd cr) t r) :
    ∃ served, r = .ok served ∧ Serves E s fd cr t served := by
  obtain ⟨⟨cmd, left⟩, t₁, t₂, rfl, hcmd, h₁⟩ := transcript_seq h
  obtain ⟨_, ⟨heq, hfour, htakes⟩ | ⟨heq, hlen, hgives⟩⟩ := transcript_recvUint32 hcmd
  · cases heq
    dsimp only at h₁
    split at h₁
    · next hsetprop => exact transcript_handleSetprop htakes (by rw [← hsetprop, bytes_uint32Of hfour]) h₁
    · next hsetprop =>
      split at h₁
      · next hsetprop2 => exact transcript_handleSetprop2 htakes (by rw [← hsetprop2, bytes_uint32Of hfour]) h₁
      · next hsetprop2 =>
        obtain ⟨rfl, rfl⟩ := transcript_refusal h₁
        refine ⟨_, rfl, serves_answered none htakes ?_ ?_ (.inr fun q stream hq => ?_) _⟩
        · rw [hfour]
          decide
        · intro hbegins
          have heq := hbegins.eq_of_length hfour.symm
          rw [← heq, uint32Of_bytes (by decide)] at hsetprop
          exact hsetprop rfl
        · exact not_request_command hfour hsetprop hsetprop2 hq
  · cases heq
    obtain ⟨rfl, rfl⟩ := transcript_refusal h₁
    refine ⟨_, rfl, serves_refusal hgives ?_ ?_ _⟩
    · unfold longestRequest
      omega
    · intro hbegins
      have hle := hbegins.length_le
      rw [length_uint32Bytes] at hle
      omega

/-- No request is at the start of another one. -/
theorem encodes_prefix_free {q q' : SetRequest} {stream stream' : List UInt8} (h : Encodes q stream) (h' : Encodes q' stream')
    (hbegins : stream <+: stream') : q = q' ∧ stream = stream' := by
  cases h with
  | setprop hname hvalue =>
    cases h' with
    | setprop hname' hvalue' =>
      obtain ⟨-, hbuffers⟩ := prefix_parts hbegins rfl
      obtain ⟨rfl, hvalues⟩ := prefix_parts hbuffers (hname.trans hname'.symm)
      obtain rfl := hvalues.eq_of_length (hvalue.trans hvalue'.symm)
      exact ⟨rfl, rfl⟩
    | setprop2 hname' hvalue' =>
      obtain ⟨heq, -⟩ := prefix_parts hbegins rfl
      exact absurd heq (by decide)
  | setprop2 hname hvalue =>
    cases h' with
    | setprop hname' hvalue' =>
      obtain ⟨heq, -⟩ := prefix_parts hbegins rfl
      exact absurd heq (by decide)
    | @setprop2 name' value' hname' hvalue' =>
      obtain ⟨-, htexts⟩ := prefix_parts hbegins rfl
      obtain ⟨rfl, hvalues⟩ := text_prefix hname hname' htexts
      rw [← List.append_nil (stringBytes _), ← List.append_nil (stringBytes value')] at hvalues
      obtain ⟨rfl, -⟩ := text_prefix hvalue hvalue' hvalues
      exact ⟨rfl, rfl⟩

/-! ## The whole of a connection -/

/-- What comes of the socket of the service: no connection, a connection of nobody known, or one that is served. -/
inductive Session (E : PropertyEnv) (s : PropertyService) : List SocketAnswer → PropertyService → Prop
  | none : Session E s [⟨.accept4, none⟩] s
  | unknown (fd : Nat) : Session E s [⟨.accept4, some fd⟩, ⟨.getPeerCred fd, none⟩, ⟨.close fd, ()⟩] s
  | served {fd : Nat} {cr : Ucred} {t : List SocketAnswer} {served : Served} (h : Serves E s fd cr t served) :
      Session E s (⟨.accept4, some fd⟩ :: ⟨.getPeerCred fd, some cr⟩ :: (t ++ served.1.toList.map fun fd => ⟨.close fd, ()⟩))
        served.2

/-- What comes of a call of the property service. -/
theorem transcript_session {r : Except Empty PropertyService} (h : Transcript (s.handlePropertySetFd E) t r) :
    ∃ s', r = .ok s' ∧ Session E s t s' := by
  obtain ⟨accepted, t₁, rfl, h₁⟩ := transcript_lift_bind h
  cases accepted with
  | none =>
    obtain ⟨rfl, rfl⟩ := transcript_pure h₁
    exact ⟨_, rfl, .none⟩
  | some fd =>
    obtain ⟨cr, t₂, rfl, h₂⟩ := transcript_lift_bind h₁
    cases cr with
    | none =>
      obtain ⟨⟨⟩, t₃, rfl, h₃⟩ := transcript_lift_bind h₂
      obtain ⟨rfl, rfl⟩ := transcript_pure h₃
      exact ⟨_, rfl, .unknown fd⟩
    | some cr =>
      obtain ⟨⟨socket, s'⟩, t₃, t₄, rfl, hserved, h₃⟩ := transcript_seq h₂
      obtain ⟨_, heq, hserves⟩ := transcript_handleConnection hserved
      cases heq
      cases socket with
      | none =>
        obtain ⟨rfl, rfl⟩ := transcript_pure h₃
        exact ⟨_, rfl, .served hserves⟩
      | some fd' =>
        obtain ⟨⟨⟩, t₅, rfl, h₄⟩ := transcript_lift_bind h₃
        obtain ⟨rfl, rfl⟩ := transcript_pure h₄
        exact ⟨_, rfl, .served hserves⟩

end SocketRequestsAux

end Innit
