import Innit.Lib.Run
import Innit.Lmkd

/-!
# Registrations outlive the connection

A connection can be lost in a registration, in its retry, in the loop that registers the services anew, and in an unregistration.
Each way out leaves no connection, from which the next registration tells that all are to be registered anew; so the services of
an open connection are all registered on it.
-/

namespace Innit

/-- A process has been registered on a connection. -/
def RegisteredOn (messages : List LmkdMessage) (pid : Nat) : Prop := ∃ uid oomadj, .procprio pid uid oomadj ∈ messages

/-- If there is a connection, the services of a list that are told of and have a process are registered on it. -/
def AllRegistered (services : List Service) (l : Lmkd) : Prop :=
  ∀ messages, l.socket = some messages → ∀ s ∈ services, s.hasOomScore = true → s.pid ≠ 0 → RegisteredOn messages s.pid

namespace LmkdRegistrationsAux

variable {works : Nat → Bool} {l : Lmkd}

theorem RegisteredOn.append {messages : List LmkdMessage} {pid : Nat} (h : RegisteredOn messages pid) (more : List LmkdMessage) :
    RegisteredOn (messages ++ more) pid := by
  obtain ⟨uid, oomadj, hmem⟩ := h
  exact ⟨uid, oomadj, List.mem_append_left more hmem⟩

theorem registeredOn_last (messages : List LmkdMessage) (pid uid : Nat) (oomadj : Int) :
    RegisteredOn (messages ++ [.procprio pid uid oomadj]) pid :=
  ⟨uid, oomadj, by simp⟩

/-- A transfer leaves no connection, or the connection with the message on it. -/
theorem transfer_cases (message : LmkdMessage) (messages : List LmkdMessage) :
    ((l.transfer works message messages).1 = false ∧ (l.transfer works message messages).2.socket = none) ∨
      ((l.transfer works message messages).1 = true ∧
        (l.transfer works message messages).2.socket = some (messages ++ [message])) := by
  unfold Lmkd.transfer
  split
  · exact Or.inr ⟨rfl, rfl⟩
  · exact Or.inl ⟨rfl, rfl⟩

/-- A registration fails and leaves no connection; or it is the last message of the connection, which is a new one if there was
none. -/
theorem registerProcess_cases (uid pid : Nat) (oomadj : Int) :
    ((l.registerProcess works uid pid oomadj).1 ≠ .success ∧ (l.registerProcess works uid pid oomadj).2.socket = none) ∨
      ((l.registerProcess works uid pid oomadj).1 = .success ∧
        (l.registerProcess works uid pid oomadj).2.socket = some (l.socket.getD [] ++ [.procprio pid uid oomadj])) := by
  unfold Lmkd.registerProcess Lmkd.connect
  dsimp only
  cases hsocket : l.socket with
  | some messages =>
    rw [if_neg (by simp), hsocket]
    dsimp only
    obtain ⟨hfailed, hnone⟩ | ⟨hsent, hsome⟩ := @transfer_cases works l (.procprio pid uid oomadj) messages
    · exact Or.inl ⟨by simp [hfailed], hnone⟩
    · exact Or.inr ⟨by simp [hsent], hsome⟩
  | none =>
    rw [if_pos (by simp)]
    by_cases hconnect : works l.attempts = true
    · simp only [hconnect, if_true]
      obtain ⟨hfailed, hnone⟩ | ⟨hsent, hsome⟩ := @transfer_cases works ⟨some [], l.attempts + 1⟩ (.procprio pid uid oomadj) []
      · exact Or.inl ⟨by simp [hfailed], hnone⟩
      · exact Or.inr ⟨by simp [hsent], hsome⟩
    · simp [hconnect]

/-- The loop leaves no connection, or one with more messages, on which all services but the excluded one are registered. -/
theorem registerServices_cases (excludePid : Nat) (services : List Service) (messages : List LmkdMessage)
    (hl : l.socket = some messages) :
    (l.registerServices works excludePid services).socket = none ∨
      ∃ more, (l.registerServices works excludePid services).socket = some (messages ++ more) ∧
        ∀ s ∈ services, s.hasOomScore = true → s.pid ≠ 0 → s.pid ≠ excludePid → RegisteredOn (messages ++ more) s.pid := by
  induction services generalizing l messages with
  | nil => exact Or.inr ⟨[], by rw [List.append_nil]; exact hl, fun s hs => absurd hs List.not_mem_nil⟩
  | cons s services ih =>
    have hskip : ∀ l' : Lmkd, l'.socket = some messages → (s.hasOomScore = true → s.pid ≠ 0 → s.pid = excludePid) →
        (l'.registerServices works excludePid services).socket = none ∨
          ∃ more, (l'.registerServices works excludePid services).socket = some (messages ++ more) ∧
            ∀ t ∈ s :: services, t.hasOomScore = true → t.pid ≠ 0 → t.pid ≠ excludePid → RegisteredOn (messages ++ more) t.pid := by
      intro l' hl' hexcluded
      obtain hnone | ⟨more, hsome, hall⟩ := ih messages hl'
      · exact Or.inl hnone
      · refine Or.inr ⟨more, hsome, fun t ht hscore hpid hother => ?_⟩
        rcases List.mem_cons.1 ht with rfl | ht
        · exact absurd (hexcluded hscore hpid) hother
        · exact hall t ht hscore hpid hother
    unfold Lmkd.registerServices
    split
    · split
      · next hpassed => exact hskip l hl (fun _ hpid => hpassed.resolve_right hpid)
      · dsimp only
        obtain ⟨hfailed, hnone⟩ | ⟨hsuccess, hsome⟩ := @registerProcess_cases works l s.procAttr.uid s.pid s.oomScoreAdjust
        · rw [if_pos hfailed]
          exact Or.inl hnone
        · rw [if_neg (fun h => h hsuccess)]
          rw [hl] at hsome
          obtain hnone | ⟨more, hmore, hall⟩ := ih _ hsome
          · exact Or.inl hnone
          · rw [Option.getD_some, List.append_assoc] at hmore hall
            refine Or.inr ⟨_, hmore, fun t ht hscore hpid hother => ?_⟩
            rcases List.mem_cons.1 ht with rfl | ht
            · rw [← List.append_assoc]
              exact RegisteredOn.append (registeredOn_last messages t.pid _ _) more
            · exact hall t ht hscore hpid hother
    · next hscore => exact hskip l hl (fun h => absurd h hscore)

/-- The loop after a registration over a new connection. -/
theorem registerServices_registers {services : List Service} {messages : List LmkdMessage} {pid : Nat}
    (hl : l.socket = some messages) (hpid : RegisteredOn messages pid) :
    AllRegistered services (l.registerServices works pid services) := by
  intro messages' hopen s hs hscore hprocess
  obtain hnone | ⟨more, hsome, hall⟩ := @registerServices_cases works l pid services messages hl
  · rw [hnone] at hopen
    cases hopen
  · rw [hsome] at hopen
    cases hopen
    by_cases hself : s.pid = pid
    · rw [hself]
      exact RegisteredOn.append hpid more
    · exact hall s hs hscore hprocess hself

theorem allRegistered_none {services : List Service} (h : l.socket = none) : AllRegistered services l := by
  intro messages hopen
  rw [h] at hopen
  cases hopen

/-- `LmkdRegister` of a process, where the others were registered before. -/
theorem lmkdRegister_registers {services : List Service} (uid pid : Nat) (oomadj : Int)
    (hothers : AllRegistered (services.filter (fun s => s.pid ≠ pid)) l) :
    AllRegistered services (l.lmkdRegister works services uid pid oomadj) := by
  unfold Lmkd.lmkdRegister
  dsimp only
  obtain ⟨hfailed, hnone⟩ | ⟨hsuccess, hsome⟩ := @registerProcess_cases works l uid pid oomadj
  · by_cases hretry : (l.registerProcess works uid pid oomadj).1 = .regFailed
    · rw [if_pos hretry]
      dsimp only
      obtain ⟨hfailed, hlost⟩ | ⟨hsuccess, hsome⟩ := @registerProcess_cases works (l.registerProcess works uid pid oomadj).2 uid pid oomadj
      · rw [if_neg (fun h => hfailed h.1)]
        exact allRegistered_none hlost
      · rw [if_pos ⟨hsuccess, by simp [hsuccess]⟩]
        exact registerServices_registers hsome (registeredOn_last _ pid uid oomadj)
    · rw [if_neg hretry]
      dsimp only
      rw [if_neg (fun h => hfailed h.1)]
      exact allRegistered_none hnone
  · have hfirst : ¬(l.registerProcess works uid pid oomadj).1 = .regFailed := by
      rw [hsuccess]
      decide
    rw [if_neg hfirst]
    dsimp only
    cases hbefore : l.socket with
    | none =>
      rw [if_pos ⟨hsuccess, by simp⟩]
      exact registerServices_registers hsome (registeredOn_last _ pid uid oomadj)
    | some messages =>
      rw [if_neg (by simp)]
      rw [hbefore] at hsome
      intro messages' hopen s hs hscore hprocess
      rw [hsome] at hopen
      cases hopen
      by_cases hself : s.pid = pid
      · rw [hself]
        exact registeredOn_last _ pid uid oomadj
      · exact RegisteredOn.append (hothers messages hbefore s (List.mem_filter.2 ⟨hs, by simpa using hself⟩) hscore hprocess) _

/-! ## Events -/

theorem mem_modify {α : Type} {as : List α} {f : α → α} {i : Nat} {a : α} (h : a ∈ as.modify i f) : a ∈ as ∨ ∃ b ∈ as, a = f b := by
  obtain ⟨j, hj⟩ := List.mem_iff_getElem?.1 h
  rw [List.getElem?_modify] at hj
  cases hb : as[j]? with
  | none =>
    rw [hb] at hj
    cases hj
  | some b =>
    rw [hb, Option.map_eq_map, Option.map_some, Option.some.injEq] at hj
    have hmem : b ∈ as := List.mem_of_getElem? hb
    split at hj
    · exact Or.inr ⟨b, hmem, hj.symm⟩
    · exact Or.inl (hj ▸ hmem)

/-- A list of which each service that counts has its process from a service of another. -/
theorem AllRegistered.of_processes {services services' : List Service} (h : AllRegistered services l)
    (hfrom : ∀ s ∈ services', s.hasOomScore = true → s.pid ≠ 0 → ∃ t ∈ services, t.hasOomScore = true ∧ t.pid = s.pid) :
    AllRegistered services' l := by
  intro messages hopen s hs hscore hprocess
  obtain ⟨t, ht, hsame, hpid⟩ := hfrom s hs hscore hprocess
  rw [← hpid]
  exact h messages hopen t ht hsame (hpid ▸ hprocess)

theorem started_registered {w : LmkdState} (h : AllRegistered w.services w.lmkd) (i timeStarted pid startOrder : Nat) :
    AllRegistered (w.started works i timeStarted pid startOrder).services (w.started works i timeStarted pid startOrder).lmkd := by
  unfold LmkdState.started
  cases hs : w.services[i]? with
  | none => exact h
  | some s =>
    dsimp only
    have hothers : ∀ t ∈ w.services.set i (s.withProcess timeStarted pid startOrder), t = s.withProcess timeStarted pid startOrder ∨
        t ∈ w.services := fun t ht => (List.mem_or_eq_of_mem_set ht).symm
    split
    · refine lmkdRegister_registers _ _ _ (AllRegistered.of_processes h (fun t ht hscore _ => ?_))
      obtain ⟨ht, hother⟩ := List.mem_filter.1 ht
      rcases hothers t ht with rfl | ht
      · simp at hother
      · exact ⟨t, ht, hscore, rfl⟩
    · next hnone =>
      refine AllRegistered.of_processes h (fun t ht hscore _ => ?_)
      rcases hothers t ht with rfl | ht
      · exact absurd hscore hnone
      · exact ⟨t, ht, hscore, rfl⟩

theorem killed_registered {w : LmkdState} (h : AllRegistered w.services w.lmkd) (i : Nat) :
    AllRegistered (w.killed works i).services (w.killed works i).lmkd := by
  unfold LmkdState.killed
  cases hs : w.services[i]? with
  | none => exact h
  | some s =>
    dsimp only
    split
    · unfold Lmkd.lmkdUnregister Lmkd.unregisterProcess
      dsimp only
      cases hsocket : w.lmkd.socket with
      | none => exact h
      | some messages =>
        dsimp only
        obtain ⟨-, hnone⟩ | ⟨-, hsome⟩ := @transfer_cases works w.lmkd (.procremove s.pid) messages
        · exact allRegistered_none hnone
        · intro messages' hopen t ht hscore hprocess
          rw [hsome] at hopen
          cases hopen
          exact RegisteredOn.append (h messages hsocket t ht hscore hprocess) _
    · exact h

/-- Every event keeps the services of an open connection registered. -/
theorem happens_registered {w : LmkdState} (h : AllRegistered w.services w.lmkd) (e : LmkdEvent) :
    AllRegistered (w.happens works e).services (w.happens works e).lmkd := by
  cases e with
  | start i timeStarted pid startOrder => exact started_registered h i timeStarted pid startOrder
  | kill i => exact killed_registered h i
  | reap i =>
    refine AllRegistered.of_processes h (fun s hs hscore hprocess => ?_)
    rcases mem_modify hs with hs | ⟨t, -, rfl⟩
    · exact ⟨s, hs, hscore, rfl⟩
    · exact absurd rfl hprocess
  | add s =>
    refine AllRegistered.of_processes h (fun t ht hscore hprocess => ?_)
    rcases List.mem_append.1 ht with ht | ht
    · exact ⟨t, ht, hscore, rfl⟩
    · rw [List.mem_singleton] at ht
      subst ht
      exact absurd rfl hprocess
  | remove i => exact AllRegistered.of_processes h (fun s hs hscore _ => ⟨s, List.mem_of_mem_eraseIdx hs, hscore, rfl⟩)
  | change i s =>
    refine AllRegistered.of_processes h (fun t ht hscore _ => ?_)
    rcases mem_modify ht with ht | ⟨old, hold, rfl⟩
    · exact ⟨t, ht, hscore, rfl⟩
    · exact ⟨old, hold, hscore, rfl⟩

end LmkdRegistrationsAux

open LmkdRegistrationsAux

/-- Whatever starts and stops, and whichever connects and transfers fail: while there is a connection, every service with a process
and a score of its own has been registered on it with the pid it has. -/
theorem after_registered (works : Nat → Bool) (es : List LmkdEvent) :
    AllRegistered (LmkdState.after works es).services (LmkdState.after works es).lmkd := by
  have hstart : AllRegistered (({} : LmkdState).services) (({} : LmkdState).lmkd) := allRegistered_none rfl
  have hstep : ∀ (w : LmkdState) (e : LmkdEvent), AllRegistered w.services w.lmkd →
      AllRegistered (w.happens works e).services (w.happens works e).lmkd := fun w e h => happens_registered h e
  exact Lib.run_always hstep es hstart

end Innit
