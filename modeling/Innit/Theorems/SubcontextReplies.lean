import Mathlib.Data.List.Perm.Subperm
import Innit.Lib.Run
import Innit.Subcontext

/-!
# Replies of the subcontext match the requests

The protocol between init and the child of a subcontext has no sequence numbers. What keeps a reply from being taken for that of
another request is that every error of `TransmitMessage` replaces the channel: at most one message is on its way on the current
channel, and none between two calls.
-/

namespace Innit

/-- The request a child works on. -/
def ChildPhase.request : ChildPhase → List Nat
  | .serving request _ => [request]
  | .replying request _ => [request]
  | _ => []

/-- The requests that are on their way on a channel, as a command, in the child, or as a reply. -/
def Fork.inFlight (f : Fork) : List Nat := f.toChild.map (·.request) ++ f.phase.request ++ f.toInit.map (·.request)

/-- The child made a reply for a request: it served the command of that request, and put the shutdown command in that a builtin
raised meanwhile. -/
def SubcontextSystem.Answers (s : SubcontextSystem) (request : Nat) (reply : SubcontextReply) : Prop :=
  ∃ command E body shutdownCommand, s.requests[request]? = some command ∧ SubcontextProcess.serve E command = some body ∧
    reply = SubcontextProcess.withShutdown shutdownCommand body ∧
    (shutdownCommand ≠ "" → (request, shutdownCommand) ∈ s.raised)

/-- The shutdown commands of the replies that `TransmitMessage` returned, with their requests. -/
def shutdownsOf : List (Result SubcontextReply × Nat) → List (Nat × String)
  | [] => []
  | (.ok reply, request) :: rest => (reply.triggerShutdown.map (request, ·)).toList ++ shutdownsOf rest
  | (.error _, _) :: rest => shutdownsOf rest

namespace SubcontextAux

open SubcontextSystem

variable {codec : SubcontextCodec} {s s' : SubcontextSystem}

/-! ### What is kept -/

/-- The logs that the packets and the children speak of only grow. -/
structure Extends (s s' : SubcontextSystem) : Prop where
  requests : s.requests <+: s'.requests
  replies : ∀ x ∈ s.replies, x ∈ s'.replies
  raised : ∀ x ∈ s.raised, x ∈ s'.raised

/-- What a child is at: the command is that of its request, the reply was made for it, and a shutdown command is one that was
raised for it. -/
def PhaseSound (s : SubcontextSystem) (f : Fork) : Prop :=
  match f.phase with
  | .polling => f.shutdownCommand = ""
  | .serving request command =>
    s.requests[request]? = some command ∧ (f.shutdownCommand ≠ "" → (request, f.shutdownCommand) ∈ s.raised)
  | .replying request reply => f.shutdownCommand = "" ∧ (request, reply) ∈ s.replies
  | .exited => True

/-- Every packet of a fork is the command of its request, or a reply made for it. -/
structure ForkSound (codec : SubcontextCodec) (s : SubcontextSystem) (f : Fork) : Prop where
  toChild : ∀ p ∈ f.toChild, ∃ command, s.requests[p.request]? = some command ∧ p.message = codec.serializeCommand command ∧
    p.message.length ≤ kBufferSize
  toInit : ∀ p ∈ f.toInit, ∃ reply, (p.request, reply) ∈ s.replies ∧ p.message = codec.serializeReply reply ∧
    p.message.length ≤ kBufferSize
  phase : PhaseSound s f

/-- What holds of the logs and the forks, also in the middle of a step. -/
structure Logged (codec : SubcontextCodec) (s : SubcontextSystem) : Prop where
  forks : ∀ i, ForkSound codec s (s.forks i)
  replies : ∀ request reply, (request, reply) ∈ s.replies → s.Answers request reply
  results : ∀ (request : Nat) (reply : SubcontextReply), s.results[request]? = some (.ok reply) → (request, reply) ∈ s.replies
  forwarded : s.forwarded = shutdownsOf s.results.zipIdx

/-- What holds in every state of a run: on the current channel nothing is on its way between two calls, and at most the request
of the call in a call. -/
structure Paired (codec : SubcontextCodec) (s : SubcontextSystem) : Prop extends Logged codec s where
  idle : s.phase = .idle → (s.forks s.current).inFlight = [] ∧ s.results.length = s.requests.length
  receiving : ∀ request, s.phase = .receiving request → (s.forks s.current).inFlight.Subperm [request] ∧
    s.results.length = request ∧ s.requests.length = request + 1

/-- A request that was made stays. -/
theorem Extends.getElem? (h : Extends s s') {request : Nat} {command : SubcontextCommand}
    (hr : s.requests[request]? = some command) : s'.requests[request]? = some command := by
  obtain ⟨rest, hrest⟩ := h.requests
  rw [← hrest, List.getElem?_append_left (List.getElem?_eq_some_iff.mp hr).1]
  exact hr

theorem ForkSound.mono (hext : Extends s s') {f : Fork} (h : ForkSound codec s f) : ForkSound codec s' f := by
  refine ⟨fun p hp => ?_, fun p hp => ?_, ?_⟩
  · obtain ⟨command, hr, hm⟩ := h.toChild p hp
    exact ⟨command, hext.getElem? hr, hm⟩
  · obtain ⟨reply, hr, hm⟩ := h.toInit p hp
    exact ⟨reply, hext.replies _ hr, hm⟩
  · have hphase := h.phase
    unfold PhaseSound at hphase ⊢
    cases hp : f.phase with
    | polling =>
      rw [hp] at hphase
      exact hphase
    | serving request command =>
      rw [hp] at hphase
      exact ⟨hext.getElem? hphase.1, fun hne => hext.raised _ (hphase.2 hne)⟩
    | replying request reply =>
      rw [hp] at hphase
      exact ⟨hphase.1, hext.replies _ hphase.2⟩
    | exited => trivial

/-- The logs are all that soundness looks at. -/
theorem ForkSound.congr {f : Fork} (h : ForkSound codec s f) (hrequests : s'.requests = s.requests)
    (hreplies : s'.replies = s.replies) (hraised : s'.raised = s.raised) : ForkSound codec s' f :=
  h.mono ⟨hrequests ▸ List.prefix_refl _, fun _ hx => hreplies ▸ hx, fun _ hx => hraised ▸ hx⟩

theorem Answers.mono (hext : Extends s s') {request : Nat} {reply : SubcontextReply} (h : s.Answers request reply) :
    s'.Answers request reply := by
  obtain ⟨command, E, body, shutdownCommand, hr, hserve, hreply, hraised⟩ := h
  exact ⟨command, E, body, shutdownCommand, hext.getElem? hr, hserve, hreply, fun hne => hext.raised _ (hraised hne)⟩

/-- A fork with nothing on its way is sound, whatever the logs. -/
theorem forkSound_new : ForkSound codec s {} :=
  ⟨fun _ hp => (List.not_mem_nil hp).elim, fun _ hp => (List.not_mem_nil hp).elim, rfl⟩

/-! ### Messages -/

/-- A message that is sent fits the buffer. -/
theorem length_of_sendMessage {answer : SendAnswer} {message : String} (h : sendMessage answer message = .ok ()) :
    message.length ≤ kBufferSize := by
  unfold sendMessage at h
  split at h
  · cases h
  · split at h
    · cases h
    · omega

/-- A message that fits the buffer is read as it was sent. -/
theorem eq_of_readMessage {message text : String} (hfits : message.length ≤ kBufferSize)
    (h : readMessage (.ok message) = .ok text) : text = message := by
  unfold readMessage at h
  dsimp only at h
  split at h
  · cases h
  · rw [List.take_of_length_le hfits, String.ofList_toList] at h
    exact (Except.ok.inj h).symm

/-! ### Steps of a child -/

/-- A step of a child: it changes its own fork, and puts no request on the way that was not there. -/
theorem Paired.child (h : Paired codec s) {i : Nat} {f : Fork} (hext : Extends s s')
    (hforks : s'.forks = Function.update s.forks i f) (hcurrent : s'.current = s.current) (hphase : s'.phase = s.phase)
    (hrequests : s'.requests = s.requests) (hresults : s'.results = s.results) (hforwarded : s'.forwarded = s.forwarded)
    (hsound : ForkSound codec s' f) (hflight : f.inFlight.Subperm (s.forks i).inFlight)
    (hreplies : ∀ request reply, (request, reply) ∈ s'.replies → s'.Answers request reply) : Paired codec s' := by
  have hcur : (s'.forks s.current).inFlight.Subperm (s.forks s.current).inFlight := by
    rw [hforks]
    by_cases hi : s.current = i
    · subst hi
      rw [Function.update_self]
      exact hflight
    · rw [Function.update_of_ne hi]
  refine ⟨⟨fun j => ?_, hreplies, fun request reply hr => ?_, ?_⟩, fun hidle => ?_, fun request hreceiving => ?_⟩
  · rw [hforks]
    by_cases hj : j = i
    · subst hj
      rw [Function.update_self]
      exact hsound
    · rw [Function.update_of_ne hj]
      exact (h.forks j).mono hext
  · rw [hresults] at hr
    exact hext.replies _ (h.results request reply hr)
  · rw [hforwarded, hresults]
    exact h.forwarded
  · obtain ⟨hnone, hlen⟩ := h.idle (hphase ▸ hidle)
    rw [hcurrent, hresults, hrequests]
    rw [hnone] at hcur
    exact ⟨List.subperm_nil.mp hcur, hlen⟩
  · obtain ⟨hone, hlen⟩ := h.receiving request (hphase ▸ hreceiving)
    rw [hcurrent, hresults, hrequests]
    exact ⟨hcur.trans hone, hlen⟩

/-- A step of a child that makes and raises nothing. -/
theorem Paired.setFork (h : Paired codec s) {i : Nat} {f : Fork} (hsound : ForkSound codec s f)
    (hflight : f.inFlight.Subperm (s.forks i).inFlight) : Paired codec (s.setFork i f) :=
  have hext : Extends s (s.setFork i f) := ⟨List.prefix_refl _, fun _ hx => hx, fun _ hx => hx⟩
  h.child hext rfl rfl rfl rfl rfl rfl ⟨hsound.toChild, hsound.toInit, hsound.phase⟩ hflight h.replies

/-- A child exits, with some of its commands unread. -/
theorem paired_exited (h : Paired codec s) (i : Nat) {rest : List Packet} (hrest : rest.Sublist (s.forks i).toChild) :
    Paired codec (s.setFork i { s.forks i with toChild := rest, phase := .exited }) := by
  refine h.setFork ⟨fun p hp => (h.forks i).toChild p (hrest.subset hp), (h.forks i).toInit, trivial⟩ ?_
  refine List.Sublist.subperm (List.Sublist.append ?_ (List.Sublist.refl _))
  exact (hrest.map _).append (List.nil_sublist _)

theorem paired_childRead (h : Paired codec s) (i : Nat) (errno : Option Nat) (parses : Bool)
    (hpolling : (s.forks i).phase = .polling) : Paired codec (s.childRead codec i errno parses) := by
  have hsound := h.forks i
  unfold childRead
  dsimp only
  cases errno with
  | some errno => exact paired_exited h i (List.Sublist.refl _)
  | none =>
    cases hto : (s.forks i).toChild with
    | nil =>
      dsimp only
      split
      · exact h
      · exact hto ▸ paired_exited h i (List.Sublist.refl _)
    | cons p rest =>
      have hexit : Paired codec (s.setFork i { s.forks i with toChild := rest, phase := .exited }) :=
        paired_exited h i (by rw [hto]; exact List.sublist_cons_self p rest)
      obtain ⟨command, hrequest, hmessage, hfits⟩ := hsound.toChild p (by rw [hto]; exact List.mem_cons_self)
      dsimp only
      cases hread : readMessage (.ok p.message) with
      | error e => exact hexit
      | ok text =>
        dsimp only
        cases hparse : (if parses then codec.parseCommand text else none) with
        | none => exact hexit
        | some command' =>
          obtain rfl : command' = command := by
            split at hparse
            · rw [eq_of_readMessage hfits hread, hmessage, codec.parseCommand_serialize] at hparse
              exact (Option.some.inj hparse).symm
            · cases hparse
          refine h.setFork ⟨fun q hq => hsound.toChild q (by rw [hto]; exact List.mem_cons_of_mem p hq), hsound.toInit, ?_⟩ ?_
          · refine ⟨hrequest, fun hne => absurd ?_ hne⟩
            have hphase := hsound.phase
            unfold PhaseSound at hphase
            rw [hpolling] at hphase
            exact hphase
          · refine List.Perm.subperm ?_
            simp only [Fork.inFlight, hto, hpolling, ChildPhase.request, List.map_cons, List.append_nil]
            exact List.Perm.append_right _ (List.perm_append_singleton _ _)

theorem paired_childServe (h : Paired codec s) (i request : Nat) (command : SubcontextCommand) (E : ChildEnv)
    (hserving : (s.forks i).phase = .serving request command) : Paired codec (s.childServe i request command E) := by
  have hsound := h.forks i
  have hphase := hsound.phase
  unfold PhaseSound at hphase
  rw [hserving] at hphase
  unfold childServe
  dsimp only
  cases hserve : SubcontextProcess.serve E command with
  | none => exact paired_exited h i (List.Sublist.refl _)
  | some body =>
    have hext : Extends s
        { s with
          forks := Function.update s.forks i { s.forks i with
            phase := .replying request (SubcontextProcess.withShutdown (s.forks i).shutdownCommand body)
            shutdownCommand := "" }
          replies := s.replies ++
            [(request, SubcontextProcess.withShutdown (s.forks i).shutdownCommand body)] } :=
      ⟨List.prefix_refl _, fun x hx => List.mem_append_left _ hx, fun _ hx => hx⟩
    refine h.child hext rfl rfl rfl rfl rfl rfl ⟨hsound.toChild, ?_, ?_⟩ ?_ ?_
    · intro p hp
      obtain ⟨reply, hr, hm⟩ := hsound.toInit p hp
      exact ⟨reply, hext.replies _ hr, hm⟩
    · exact ⟨rfl, List.mem_append_right _ (List.mem_singleton.mpr rfl)⟩
    · refine List.Perm.subperm ?_
      simp only [Fork.inFlight, hserving, ChildPhase.request]
      exact List.Perm.refl _
    · intro k reply hk
      rcases List.mem_append.mp hk with hk | hk
      · exact Answers.mono hext (h.replies k reply hk)
      · obtain ⟨rfl, rfl⟩ := Prod.mk.inj (List.mem_singleton.mp hk)
        exact ⟨command, E, body, (s.forks i).shutdownCommand, hphase.1, hserve, rfl, hphase.2⟩

theorem paired_childSend (h : Paired codec s) (i request : Nat) (reply : SubcontextReply) (answer : SendAnswer)
    (hreplying : (s.forks i).phase = .replying request reply) : Paired codec (s.childSend codec i request reply answer) := by
  have hsound := h.forks i
  have hphase := hsound.phase
  unfold PhaseSound at hphase
  rw [hreplying] at hphase
  unfold childSend
  dsimp only
  generalize (if i = s.current then answer else { answer with errno := some epipe }) = answer
  cases hsend : sendMessage answer (codec.serializeReply reply) with
  | error e => exact paired_exited h i (List.Sublist.refl _)
  | ok u =>
    refine h.setFork ⟨hsound.toChild, fun p hp => ?_, hphase.1⟩ ?_
    · rcases List.mem_append.mp hp with hp | hp
      · exact hsound.toInit p hp
      · rw [List.mem_singleton.mp hp]
        exact ⟨reply, hphase.2, rfl, length_of_sendMessage hsend⟩
    · refine List.Perm.subperm ?_
      simp only [Fork.inFlight, hreplying, ChildPhase.request, List.map_append, List.map_cons, List.map_nil, List.append_nil]
      rw [List.append_assoc]
      exact List.Perm.append_left _ (List.perm_append_comm)

theorem paired_childRaise (h : Paired codec s) (i request : Nat) (command : SubcontextCommand) (shutdownCommand : String)
    (hserving : (s.forks i).phase = .serving request command) :
    Paired codec { s.setFork i { s.forks i with shutdownCommand := shutdownCommand } with
      raised := s.raised ++ [(request, shutdownCommand)] } := by
  have hsound := h.forks i
  have hphase := hsound.phase
  unfold PhaseSound at hphase
  rw [hserving] at hphase
  have hext : Extends s { s.setFork i { s.forks i with shutdownCommand := shutdownCommand } with
      raised := s.raised ++ [(request, shutdownCommand)] } :=
    ⟨List.prefix_refl _, fun _ hx => hx, fun x hx => List.mem_append_left _ hx⟩
  refine h.child hext rfl rfl rfl rfl rfl rfl ⟨hsound.toChild, hsound.toInit, ?_⟩ (List.Subperm.refl _)
    (fun k reply hk => Answers.mono hext (h.replies k reply hk))
  unfold PhaseSound
  dsimp only
  rw [hserving]
  exact ⟨hphase.1, fun _ => List.mem_append_right _ (List.mem_singleton.mpr rfl)⟩

/-! ### Steps of init -/

/-- A result of a longer list is the last one, or was there before. -/
theorem getElem?_concat {results : List (Result SubcontextReply)} {r r' : Result SubcontextReply} {k : Nat}
    (h : (results ++ [r'])[k]? = some r) : results[k]? = some r ∨ (k = results.length ∧ r' = r) := by
  by_cases hk : k < results.length
  · rw [List.getElem?_append_left hk] at h
    exact .inl h
  · rw [List.getElem?_append_right (by omega)] at h
    have hlen := (List.getElem?_eq_some_iff.mp h).1
    simp only [List.length_singleton] at hlen
    obtain rfl : k = results.length := by omega
    rw [Nat.sub_self] at h
    exact .inr ⟨rfl, Option.some.inj h⟩

theorem shutdownsOf_append (rs rs' : List (Result SubcontextReply × Nat)) :
    shutdownsOf (rs ++ rs') = shutdownsOf rs ++ shutdownsOf rs' := by
  induction rs with
  | nil => rfl
  | cons r rs ih =>
    obtain ⟨r, k⟩ := r
    cases r with
    | error e => exact ih
    | ok reply =>
      rw [List.cons_append, shutdownsOf, shutdownsOf, ih, List.append_assoc]

/-- After a restart every fork is sound. -/
theorem forkSound_restart (h : ∀ i, ForkSound codec s (s.forks i)) (i : Nat) : ForkSound codec s (s.restart.forks i) := by
  change ForkSound codec s (Function.update s.forks (s.current + 1) {} i)
  by_cases hi : i = s.current + 1
  · subst hi
    rw [Function.update_self]
    exact forkSound_new
  · rw [Function.update_of_ne hi]
    exact h i

/-- After a restart nothing is on its way. -/
theorem inFlight_restart (s : SubcontextSystem) : (s.restart.forks s.restart.current).inFlight = [] := by
  change (Function.update s.forks (s.current + 1) ({} : Fork) (s.current + 1)).inFlight = []
  rw [Function.update_self]
  rfl

/-- A call that fails ends with a new channel. -/
theorem Logged.failed (h : Logged codec s) (hlen : s.results.length + 1 = s.requests.length) (e : ResultError) :
    Paired codec (s.restart.returns (.error e)) := by
  refine ⟨⟨fun i => (forkSound_restart h.forks i).congr rfl rfl rfl, h.replies, fun request reply hr => ?_, ?_⟩, fun _ => ⟨inFlight_restart s, ?_⟩,
    fun request hr => by cases hr⟩
  · rcases getElem?_concat hr with hr | ⟨-, hr⟩
    · exact h.results request reply hr
    · cases hr
  · change s.forwarded = shutdownsOf (s.results ++ [Except.error e]).zipIdx
    rw [List.zipIdx_append, shutdownsOf_append, ← h.forwarded]
    exact (List.append_nil _).symm
  · change (s.results ++ [Except.error e]).length = s.requests.length
    rw [List.length_append, List.length_singleton]
    exact hlen

/-- A call that returns a reply leaves nothing on its channel. -/
theorem Logged.answered (h : Logged codec s) {request : Nat} {reply : SubcontextReply}
    (hnone : (s.forks s.current).inFlight = []) (hresults : s.results.length = request)
    (hrequests : s.requests.length = request + 1) (hreply : (request, reply) ∈ s.replies) :
    Paired codec ({ s with
      forwarded := s.forwarded ++ (reply.triggerShutdown.map (request, ·)).toList }.returns (.ok reply)) := by
  refine ⟨⟨fun i => (h.forks i).congr rfl rfl rfl, h.replies, fun k reply' hr => ?_, ?_⟩, fun _ => ⟨hnone, ?_⟩,
    fun _ hr => by cases hr⟩
  · rcases getElem?_concat hr with hr | ⟨hk, hr⟩
    · exact h.results k reply' hr
    · cases hr
      obtain rfl : k = request := hk.trans hresults
      exact hreply
  · change s.forwarded ++ _ = shutdownsOf (s.results ++ [Except.ok reply]).zipIdx
    rw [List.zipIdx_append, shutdownsOf_append, ← h.forwarded, ← hresults]
    simp [shutdownsOf]
  · change (s.results ++ [Except.ok reply]).length = s.requests.length
    rw [List.length_append, List.length_singleton, hresults, hrequests]

theorem paired_send (h : Paired codec s) (hidle : s.phase = .idle) (command : SubcontextCommand) (answer : SendAnswer)
    (errno : Nat) : Paired codec (s.transmitSend codec command answer errno) := by
  obtain ⟨hnone, hlen⟩ := h.idle hidle
  have hext : Extends s { s with requests := s.requests ++ [command] } :=
    ⟨List.prefix_append _ _, fun _ hx => hx, fun _ hx => hx⟩
  have hlogged : Logged codec { s with requests := s.requests ++ [command] } :=
    ⟨fun i => (h.forks i).mono hext, fun k reply hk => Answers.mono hext (h.replies k reply hk), h.results, h.forwarded⟩
  unfold transmitSend
  dsimp only
  generalize (if (s.forks s.current).phase = .exited then { answer with errno := some epipe } else answer) = answer
  cases hsend : sendMessage answer (codec.serializeCommand command) with
  | error e =>
    refine hlogged.failed ?_ _
    change s.results.length + 1 = (s.requests ++ [command]).length
    rw [List.length_append, List.length_singleton, hlen]
  | ok u =>
    dsimp only
    have hfork := hlogged.forks s.current
    simp only [Fork.inFlight, List.append_eq_nil_iff, List.map_eq_nil_iff] at hnone
    obtain ⟨⟨hto, hphase⟩, hfrom⟩ := hnone
    have hnew : ForkSound codec { s with requests := s.requests ++ [command] } { s.forks s.current with
        toChild := (s.forks s.current).toChild ++ [⟨s.requests.length, codec.serializeCommand command⟩] } := by
      refine ⟨fun p hp => ?_, hfork.toInit, hfork.phase⟩
      rw [hto, List.nil_append] at hp
      rw [List.mem_singleton.mp hp]
      exact ⟨command, List.getElem?_concat_length, rfl, length_of_sendMessage hsend⟩
    refine ⟨⟨fun i => ?_, hlogged.replies, hlogged.results, hlogged.forwarded⟩, (fun hi => by cases hi), fun k hk => ?_⟩
    · refine ForkSound.congr (s := { s with requests := s.requests ++ [command] }) ?_ rfl rfl rfl
      change ForkSound codec { s with requests := s.requests ++ [command] } (Function.update s.forks s.current _ i)
      by_cases hi : i = s.current
      · subst hi
        rw [Function.update_self]
        exact hnew
      · rw [Function.update_of_ne hi]
        exact hlogged.forks i
    · cases hk
      refine ⟨?_, hlen, ?_⟩
      · change (Function.update s.forks s.current _ s.current).inFlight.Subperm [s.requests.length]
        rw [Function.update_self]
        simp [Fork.inFlight, hto, hphase, hfrom]
      · change (s.requests ++ [command]).length = _
        rw [List.length_append, List.length_singleton]

/-- What init makes of a packet it has taken off the channel, or of a call of `recv` that gave none. -/
theorem paired_received (h : Paired codec s) {request : Nat} (hphase : s.phase = .receiving request)
    (received : Except Nat String) (parses : Bool)
    (hpacket : ∀ message, received = .ok message → message ≠ "" → (s.forks s.current).inFlight = [] ∧
      ∃ reply, (request, reply) ∈ s.replies ∧ message = codec.serializeReply reply ∧ message.length ≤ kBufferSize) :
    Paired codec (s.transmitReceived codec request received parses) := by
  obtain ⟨-, hresults, hrequests⟩ := h.receiving request hphase
  have hlen : s.results.length + 1 = s.requests.length := by omega
  unfold transmitReceived
  cases hread : readMessage received with
  | error e => exact h.toLogged.failed hlen _
  | ok text =>
    dsimp only
    cases hparse : (if parses then codec.parseReply text else none) with
    | none => exact h.toLogged.failed hlen _
    | some reply =>
      cases received with
      | error errno => cases hread
      | ok message =>
        have hne : message ≠ "" := by
          rintro rfl
          cases hread
        obtain ⟨hnone, reply', hreply, hmessage, hfits⟩ := hpacket message rfl hne
        obtain rfl : reply = reply' := by
          split at hparse
          · rw [eq_of_readMessage hfits hread, hmessage, codec.parseReply_serialize] at hparse
            exact (Option.some.inj hparse).symm
          · cases hparse
        exact h.toLogged.answered hnone hresults hrequests hreply

theorem paired_receive (h : Paired codec s) {request : Nat} (hphase : s.phase = .receiving request) (errno : Option Nat)
    (parses : Bool) : Paired codec (s.transmitReceive codec request errno parses) := by
  have hsound := h.forks s.current
  unfold transmitReceive
  dsimp only
  cases errno with
  | some errno => exact paired_received h hphase _ parses (fun _ hm => by cases hm)
  | none =>
    cases hfrom : (s.forks s.current).toInit with
    | nil =>
      dsimp only
      split
      · exact paired_received h hphase _ parses (fun message hm hne => absurd (Except.ok.inj hm).symm hne)
      · exact h
    | cons p rest =>
      dsimp only
      obtain ⟨reply, hreply, hm⟩ := hsound.toInit p (by rw [hfrom]; exact List.mem_cons_self)
      have hall : p.request = request ∧ { s.forks s.current with toInit := rest }.inFlight = [] := by
        have hone := (h.receiving request hphase).1
        have hmem : p.request ∈ (s.forks s.current).inFlight := by
          simp [Fork.inFlight, hfrom]
        refine ⟨List.mem_singleton.mp (hone.subset hmem), ?_⟩
        have hle := hone.length_le
        simp only [Fork.inFlight, hfrom, List.map_cons, List.length_append, List.length_map, List.length_cons,
          List.length_nil] at hle
        refine List.eq_nil_of_length_eq_zero ?_
        simp only [Fork.inFlight, List.length_append, List.length_map]
        omega
      have hpopped : Paired codec (s.setFork s.current { s.forks s.current with toInit := rest }) := by
        refine h.setFork ⟨hsound.toChild, fun q hq => hsound.toInit q (by rw [hfrom]; exact List.mem_cons_of_mem p hq),
          hsound.phase⟩ ?_
        rw [hall.2]
        exact List.nil_subperm
      refine paired_received hpopped hphase _ parses (fun message hmessage _ => ⟨?_, reply, ?_, ?_⟩)
      · change (Function.update s.forks s.current _ s.current).inFlight = []
        rw [Function.update_self]
        exact hall.2
      · rw [← hall.1]
        exact hreply
      · cases hmessage
        exact hm

/-- Init forks a new child between two calls. -/
theorem paired_childReap (h : Paired codec s) (hidle : s.phase = .idle) : Paired codec s.subcontextChildReap := by
  unfold subcontextChildReap
  split
  · refine ⟨⟨fun i => (forkSound_restart h.forks i).congr rfl rfl rfl, h.replies, h.results, h.forwarded⟩,
      fun _ => ⟨inFlight_restart s, (h.idle hidle).2⟩, fun k hk => ?_⟩
    change s.phase = _ at hk
    rw [hidle] at hk
    cases hk
  · exact h

/-! ### Runs -/

theorem paired_step (h : Paired codec s) (e : SubcontextStep) : Paired codec (s.step codec e) := by
  cases e with
  | send command answer errno =>
    simp only [step]
    split
    · next hidle => exact paired_send h hidle command answer errno
    · exact h
  | receive errno parses =>
    simp only [step]
    split
    · exact h
    · next request hphase => exact paired_receive h hphase errno parses
  | childReap =>
    simp only [step]
    split
    · next hidle => exact paired_childReap h hidle
    · exact h
  | terminate => exact ⟨⟨fun i => ⟨(h.forks i).toChild, (h.forks i).toInit, (h.forks i).phase⟩, h.replies, h.results, h.forwarded⟩,
      h.idle, h.receiving⟩
  | childRead i errno parses =>
    simp only [step]
    split
    · next hpolling => exact paired_childRead h i errno parses hpolling
    · exact h
  | childRaise i shutdownCommand =>
    simp only [step]
    split
    · next request command hserving => exact paired_childRaise h i request command shutdownCommand hserving
    · exact h
  | childServe i E =>
    simp only [step]
    split
    · next request command hserving => exact paired_childServe h i request command E hserving
    · exact h
  | childSend i answer =>
    simp only [step]
    split
    · next request reply hreplying => exact paired_childSend h i request reply answer hreplying
    · exact h
  | childExit i => exact paired_exited h i (List.Sublist.refl _)

theorem paired_start : Paired codec {} :=
  ⟨⟨fun _ => forkSound_new, fun _ _ h => (List.not_mem_nil h).elim, fun k r h => by simp at h, rfl⟩, fun _ => ⟨rfl, rfl⟩,
    fun _ h => by cases h⟩

theorem paired_run (codec : SubcontextCodec) (steps : List SubcontextStep) : Paired codec (run codec steps) :=
  Lib.run_always (I := Paired codec) (fun _ e h => paired_step h e) steps paired_start

/-! ### What the logs say -/

theorem mem_shutdownsOf {rs : List (Result SubcontextReply × Nat)} {request : Nat} {command : String}
    (h : (request, command) ∈ shutdownsOf rs) :
    ∃ reply : SubcontextReply, (.ok reply, request) ∈ rs ∧ reply.triggerShutdown = some command := by
  induction rs with
  | nil => exact (List.not_mem_nil h).elim
  | cons r rs ih =>
    obtain ⟨r, k⟩ := r
    cases r with
    | error e =>
      obtain ⟨reply, hr, hs⟩ := ih h
      exact ⟨reply, List.mem_cons_of_mem _ hr, hs⟩
    | ok reply =>
      rcases List.mem_append.mp h with h | h
      · obtain ⟨command', hc, hk⟩ := Option.map_eq_some_iff.mp (Option.mem_toList.mp h)
        obtain ⟨rfl, rfl⟩ := Prod.mk.inj hk
        exact ⟨reply, List.mem_cons_self, hc⟩
      · obtain ⟨reply', hr, hs⟩ := ih h
        exact ⟨reply', List.mem_cons_of_mem _ hr, hs⟩

/-- One command for a result, at most. -/
theorem shutdownsOf_sublist (rs : List (Result SubcontextReply × Nat)) :
    ((shutdownsOf rs).map (·.1)).Sublist (rs.map (·.2)) := by
  induction rs with
  | nil => exact List.Sublist.refl _
  | cons r rs ih =>
    obtain ⟨r, k⟩ := r
    cases r with
    | error e => exact ih.cons k
    | ok reply =>
      rw [shutdownsOf, List.map_append, List.map_cons]
      cases hs : reply.triggerShutdown with
      | none => exact ih.cons k
      | some command => exact ih.cons_cons k

/-- A reply the child makes has no shutdown command but the one put in at the end. -/
theorem serve_triggerShutdown {E : ChildEnv} {command : SubcontextCommand} {reply : SubcontextReply}
    (h : SubcontextProcess.serve E command = some reply) : reply.triggerShutdown = none := by
  have hexpand : ∀ (args : List String) (r : SubcontextReply),
      (SubcontextProcess.expandArgs E args r).triggerShutdown = r.triggerShutdown := by
    intro args
    induction args with
    | nil => exact fun r => rfl
    | cons arg args ih =>
      intro r
      unfold SubcontextProcess.expandArgs
      split
      · rfl
      · rw [ih]
        unfold SubcontextProcess.addExpandedArg
        split <;> rfl
  cases command with
  | notSet => cases h
  | executeCommand args =>
    rw [← Option.some.inj h]
    unfold SubcontextProcess.runCommand
    dsimp only
    split <;> rfl
  | expandArgsCommand args =>
    rw [← Option.some.inj h]
    exact hexpand args {}

end SubcontextAux

open SubcontextAux

/-- What the protocol promises. There is one result for each request of a call that is over. A reply was made by the child for the
request it is returned for. Between two calls the channel for the next one is empty, and its child is not about to write. A
shutdown command that is forwarded was raised while its request was served, and comes with the reply to it; for one request, at
most one is. -/
structure SubcontextSystem.RepliesMatch (s : SubcontextSystem) : Prop where
  counted : s.phase = .idle → s.results.length = s.requests.length
  reply : ∀ (request : Nat) (reply : SubcontextReply), s.results[request]? = some (.ok reply) →
    (request, reply) ∈ s.replies ∧ s.Answers request reply
  quiet : s.phase = .idle → (s.forks s.current).toChild = [] ∧ (s.forks s.current).toInit = [] ∧
    (s.forks s.current).phase.request = []
  shutdown : ∀ request command, (request, command) ∈ s.forwarded → (request, command) ∈ s.raised ∧
    ∃ reply : SubcontextReply, s.results[request]? = some (.ok reply) ∧ reply.triggerShutdown = some command
  once : (s.forwarded.map (·.1)).Nodup

/-- Replies of the subcontext match the requests, in every run of init and its children. -/
theorem subcontext_replies (codec : SubcontextCodec) (steps : List SubcontextStep) :
    (SubcontextSystem.run codec steps).RepliesMatch := by
  have h := paired_run codec steps
  generalize SubcontextSystem.run codec steps = s at h ⊢
  refine ⟨fun hidle => (h.idle hidle).2, fun request reply hr => ?_, fun hidle => ?_, fun request command hf => ?_, ?_⟩
  · have hmade := h.results request reply hr
    exact ⟨hmade, h.replies request reply hmade⟩
  · have hnone := (h.idle hidle).1
    simp only [Fork.inFlight, List.append_eq_nil_iff, List.map_eq_nil_iff] at hnone
    exact ⟨hnone.1.1, hnone.2, hnone.1.2⟩
  · rw [h.forwarded] at hf
    obtain ⟨reply, hmem, htrigger⟩ := mem_shutdownsOf hf
    have hr : s.results[request]? = some (.ok reply) := List.mk_mem_zipIdx_iff_getElem?.mp hmem
    refine ⟨?_, reply, hr, htrigger⟩
    obtain ⟨sent, E, body, shutdownCommand, -, hserve, rfl, hraised⟩ := h.replies request reply (h.results request reply hr)
    unfold SubcontextProcess.withShutdown at htrigger
    split at htrigger
    · next hne =>
      cases htrigger
      exact hraised hne
    · rw [serve_triggerShutdown hserve] at htrigger
      cases htrigger
  · rw [h.forwarded]
    refine (shutdownsOf_sublist s.results.zipIdx).nodup ?_
    rw [List.zipIdx_map_snd]
    exact List.nodup_range'

end Innit
