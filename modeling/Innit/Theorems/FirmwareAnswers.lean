import Innit.FirmwareLoading
import Innit.Lib.Transcript

/-!
# The answers to firmware requests

The kernel's side of a request is a machine: it waits, is told that the firmware is being written, gets it, and is told to commit or to
abort. Whatever the file system, the external handler and the kernel answer, a child drives this machine to an end and never out of
order, unless it could not open the request's files or the system is still booting. What is committed is the file of the first directory
that has it.
-/

namespace Innit

open Lib Lib.Prog

/-! ## The request -/

/-- A call of the child, and its answer. -/
abbrev FirmwareEvent := (op : FirmwareCall) × op.Ans

/-- The kernel's side of a request. -/
inductive Loader where
  | waiting
  | loading
  | written (file : String)
  | committed (file : String)
  | aborted
  | broken
deriving DecidableEq, Repr

/-- What a call does to the request. -/
def Loader.step (l : Loader) : FirmwareEvent → Loader
  | ⟨.writeLoading text, _⟩ =>
    match l with
    | waiting => if text = "1" then loading else if text = "-1" then aborted else broken
    | loading => if text = "-1" then aborted else broken
    | written file => if text = "0" then committed file else if text = "-1" then aborted else broken
    | _ => broken
  | ⟨.sendfile file _, (sent : Bool)⟩ =>
    match l with
    | loading => if sent then written file else loading
    | _ => broken
  | _ => l

/-- The request after some calls. -/
def requestAfter (t : List FirmwareEvent) : Loader := t.foldl Loader.step .waiting

/-- The calls that look for the firmware in some directories, none of which has it. -/
inductive NotIn (firmware : String) : List String → List FirmwareEvent → Prop
  | nil : NotIn firmware [] []
  | missing {dir : String} {dirs : List String} {t : List FirmwareEvent} (h : NotIn firmware dirs t) :
      NotIn firmware (dir :: dirs) (⟨.openFirmware (dir ++ firmware), false⟩ :: t)
  | unreadable {dir : String} {dirs : List String} {t : List FirmwareEvent} (h : NotIn firmware dirs t) :
      NotIn firmware (dir :: dirs) (⟨.openFirmware (dir ++ firmware), true⟩ :: ⟨.fstat (dir ++ firmware), none⟩ :: t)

namespace FirmwareHandler

variable (H : FirmwareHandler)

/-- The calls of an attempt that goes through all directories, and finds the firmware in none. -/
def NotFound (firmware : String) (t : List FirmwareEvent) : Prop :=
  ∃ configured found apexes, NotIn firmware H.firmwareDirectories configured ∧ NotIn firmware (apexDirectories found) apexes ∧
    t = configured ++ ⟨.glob "/apex/*/etc/firmware/", found⟩ :: apexes

/-- The calls of an attempt before the directory that has the firmware: it is the first one that does. -/
def FoundFirst (firmware dir : String) (t : List FirmwareEvent) : Prop :=
  (∃ before after, H.firmwareDirectories = before ++ dir :: after ∧ NotIn firmware before t) ∨
    ∃ configured found before after apexes, NotIn firmware H.firmwareDirectories configured ∧
      apexDirectories found = before ++ dir :: after ∧ NotIn firmware before apexes ∧
      t = configured ++ ⟨.glob "/apex/*/etc/firmware/", found⟩ :: apexes

end FirmwareHandler

/-- The calls that open the files of a request. -/
def requestOpened (root : String) : List FirmwareEvent :=
  [⟨.openForWriting (root ++ "/loading"), true⟩, ⟨.openForWriting (root ++ "/data"), true⟩]

/-- The calls of some attempts, each begun while the system was booting, that found the firmware nowhere. -/
inductive StillBooting (H : FirmwareHandler) (firmware : String) : Nat → List FirmwareEvent → Prop
  | nil : StillBooting H firmware 0 []
  | attempt {n : Nat} {missed t : List FirmwareEvent} (hnot : H.NotFound firmware missed) (hrest : StillBooting H firmware n t) :
      StillBooting H firmware (n + 1) (⟨.access "/dev/.booting", true⟩ :: missed ++ ⟨.sleep 100, ()⟩ :: t)

/-- The calls that answer a request with a file. -/
def transferOf (file : String) (size : Nat) (sent : Bool) : List FirmwareEvent :=
  [⟨.openFirmware file, true⟩, ⟨.fstat file, some size⟩, ⟨.writeLoading "1", ()⟩, ⟨.sendfile file size, sent⟩,
    ⟨.writeLoading (if sent then "0" else "-1"), ()⟩]

namespace FirmwareAnswersAux

open FirmwareHandler FirmwareProg

variable {H : FirmwareHandler} {firmware : String} {t : List FirmwareEvent}

/-- A try in one directory. -/
theorem transcript_try {dir : String} {r : Except String Bool} (h : Transcript (tryLoadFirmware firmware dir) t r) :
    (r = .ok false ∧ ∀ dirs t', NotIn firmware dirs t' → NotIn firmware (dir :: dirs) (t ++ t')) ∨
      (r = .ok true ∧ ∃ size sent, t = transferOf (dir ++ firmware) size sent) := by
  obtain ⟨opened, t₁, rfl, h₁⟩ := transcript_lift_bind h
  split at h₁
  · next hopened =>
    obtain ⟨rfl, rfl⟩ := transcript_pure h₁
    obtain rfl : opened = false := by simpa using hopened
    exact .inl ⟨rfl, fun dirs t' ht => .missing ht⟩
  · next hopened =>
    obtain rfl : opened = true := by simpa using hopened
    obtain ⟨sb, t₂, rfl, h₂⟩ := transcript_lift_bind h₁
    split at h₂
    · obtain ⟨rfl, rfl⟩ := transcript_pure h₂
      exact .inl ⟨rfl, fun dirs t' ht => .unreadable ht⟩
    · next size =>
      obtain ⟨⟨⟩, t₃, rfl, h₃⟩ := transcript_lift_bind h₂
      obtain ⟨sent, t₄, rfl, h₄⟩ := transcript_lift_bind h₃
      obtain ⟨⟨⟩, t₅, rfl, h₅⟩ := transcript_lift_bind h₄
      obtain ⟨rfl, rfl⟩ := transcript_pure h₅
      exact .inr ⟨rfl, size, sent, rfl⟩

/-- A loop over directories. -/
theorem transcript_forEach (dirs : List String) {r : Except String Bool} (h : Transcript (forEachOf firmware dirs) t r) :
    (r = .ok false ∧ NotIn firmware dirs t) ∨
      (r = .ok true ∧ ∃ before dir after missed size sent, dirs = before ++ dir :: after ∧ NotIn firmware before missed ∧
        t = missed ++ transferOf (dir ++ firmware) size sent) := by
  induction dirs generalizing t with
  | nil =>
    obtain ⟨rfl, rfl⟩ := transcript_pure h
    exact .inl ⟨rfl, .nil⟩
  | cons dir dirs ih =>
    rcases transcript_bind h with ⟨loaded, t₁, t₂, rfl, htry, hrest⟩ | ⟨e, rfl, htry⟩
    · rcases transcript_try htry with ⟨hloaded, hmissed⟩ | ⟨hloaded, size, sent, rfl⟩
      · obtain rfl := Except.ok.inj hloaded
        rcases ih hrest with ⟨rfl, hnot⟩ | ⟨rfl, before, dir', after, missed, size, sent, rfl, hnot, rfl⟩
        · exact .inl ⟨rfl, hmissed dirs t₂ hnot⟩
        · refine .inr ⟨rfl, dir :: before, dir', after, t₁ ++ missed, size, sent, rfl, hmissed before missed hnot, ?_⟩
          rw [List.append_assoc]
      · obtain rfl := Except.ok.inj hloaded
        obtain ⟨rfl, rfl⟩ := transcript_pure hrest
        exact .inr ⟨rfl, [], dir, dirs, [], size, sent, rfl, .nil, by simp⟩
    · rcases transcript_try htry with ⟨hloaded, -⟩ | ⟨hloaded, -⟩ <;> cases hloaded

/-- An attempt. -/
theorem transcript_attempt {r : Except String Bool} (h : Transcript (H.forEachFirmwareDirectory firmware) t r) :
    (r = .ok false ∧ H.NotFound firmware t) ∨
      (r = .ok true ∧ ∃ dir missed size sent, H.FoundFirst firmware dir missed ∧ t = missed ++ transferOf (dir ++ firmware) size sent) := by
  rcases transcript_bind h with ⟨loaded, t₁, t₂, rfl, hfirst, hrest⟩ | ⟨e, rfl, hfirst⟩
  · rcases transcript_forEach _ hfirst with ⟨hloaded, hnot⟩ | ⟨hloaded, before, dir, after, missed, size, sent, hdirs, hnot, rfl⟩
    · obtain rfl := Except.ok.inj hloaded
      obtain ⟨found, t₃, rfl, hapex⟩ := transcript_lift_bind hrest
      rcases transcript_forEach _ hapex with ⟨rfl, hnot'⟩ | ⟨rfl, before, dir, after, missed, size, sent, hdirs, hnot', rfl⟩
      · exact .inl ⟨rfl, t₁, found, t₃, hnot, hnot', rfl⟩
      · refine .inr ⟨rfl, dir, t₁ ++ ⟨.glob "/apex/*/etc/firmware/", found⟩ :: missed, size, sent,
          .inr ⟨t₁, found, before, after, missed, hnot, hdirs, hnot', rfl⟩, ?_⟩
        rw [List.append_assoc]
        rfl
    · obtain rfl := Except.ok.inj hloaded
      obtain ⟨rfl, rfl⟩ := transcript_pure hrest
      exact .inr ⟨rfl, dir, missed, size, sent, .inl ⟨before, after, hdirs, hnot⟩, by simp⟩
  · rcases transcript_forEach _ hfirst with ⟨hloaded, -⟩ | ⟨hloaded, -⟩ <;> cases hloaded

/-! ### The request meanwhile -/

/-- Calls that do nothing to the request. -/
def Silent (t : List FirmwareEvent) : Prop := ∀ e ∈ t, ∀ l : Loader, l.step e = l

theorem Silent.append {t t' : List FirmwareEvent} (h : Silent t) (h' : Silent t') : Silent (t ++ t') := by
  intro e he
  rcases List.mem_append.1 he with he | he
  · exact h e he
  · exact h' e he

theorem Silent.cons {e : FirmwareEvent} {t : List FirmwareEvent} (he : ∀ l : Loader, l.step e = l) (h : Silent t) : Silent (e :: t) := by
  intro e' he'
  rcases List.mem_cons.1 he' with rfl | he'
  · exact he
  · exact h e' he'

theorem Silent.foldl {t : List FirmwareEvent} (h : Silent t) (l : Loader) : t.foldl Loader.step l = l := by
  induction t generalizing l with
  | nil => rfl
  | cons e t ih =>
    rw [List.foldl_cons, h e List.mem_cons_self l]
    exact ih (fun e he => h e (List.mem_cons_of_mem _ he)) l

theorem NotIn.silent {dirs : List String} (h : NotIn firmware dirs t) : Silent t := by
  induction h with
  | nil => exact fun e he => absurd he List.not_mem_nil
  | missing _ ih => exact ih.cons fun _ => rfl
  | unreadable _ ih => exact (ih.cons fun _ => rfl).cons fun _ => rfl

theorem NotFound.silent (h : H.NotFound firmware t) : Silent t := by
  obtain ⟨configured, found, apexes, hconfigured, hapexes, rfl⟩ := h
  exact (NotIn.silent hconfigured).append ((NotIn.silent hapexes).cons fun _ => rfl)

theorem FoundFirst.silent {dir : String} (h : H.FoundFirst firmware dir t) : Silent t := by
  rcases h with ⟨before, after, -, hnot⟩ | ⟨configured, found, before, after, apexes, hconfigured, -, hapexes, rfl⟩
  · exact NotIn.silent hnot
  · exact (NotIn.silent hconfigured).append ((NotIn.silent hapexes).cons fun _ => rfl)

/-! ### The attempts -/

theorem StillBooting.silent {n : Nat} (h : StillBooting H firmware n t) : Silent t := by
  induction h with
  | nil => exact fun e he => absurd he List.not_mem_nil
  | attempt hnot _ ih => exact ((NotFound.silent hnot).append (ih.cons fun _ => rfl)).cons fun _ => rfl

/-- How the attempts end: with a transfer, with an attempt that finds nothing once the system has booted, or not yet, after all of them
were begun while it was booting. -/
inductive Ending (H : FirmwareHandler) (firmware : String) (rounds : Nat) : List FirmwareEvent → Except String Unit → Prop
  | transferred {n : Nat} {before missed : List FirmwareEvent} {booting : Bool} {dir : String} {size : Nat} {sent : Bool}
      (hn : n < rounds) (hbefore : StillBooting H firmware n before) (hfound : H.FoundFirst firmware dir missed) :
      Ending H firmware rounds
        (before ++ ⟨.access "/dev/.booting", booting⟩ :: missed ++ transferOf (dir ++ firmware) size sent) (.ok ())
  | gaveUp {n : Nat} {before missed : List FirmwareEvent} (hn : n < rounds) (hbefore : StillBooting H firmware n before)
      (hnot : H.NotFound firmware missed) :
      Ending H firmware rounds (before ++ ⟨.access "/dev/.booting", false⟩ :: missed ++ [⟨.writeLoading "-1", ()⟩]) (.ok ())
  | notYet {before : List FirmwareEvent} {booting : Bool} (hbefore : StillBooting H firmware rounds before) :
      Ending H firmware rounds (before ++ [⟨.access "/dev/.booting", booting⟩]) (.error "still booting")

/-- One attempt more, begun while the system was booting. -/
theorem Ending.again {rounds : Nat} {missed : List FirmwareEvent} {r : Except String Unit} (hnot : H.NotFound firmware missed)
    (h : Ending H firmware rounds t r) :
    Ending H firmware (rounds + 1) (⟨.access "/dev/.booting", true⟩ :: missed ++ ⟨.sleep 100, ()⟩ :: t) r := by
  cases h with
  | @transferred n before missed' booting dir size sent hn hbefore hfound =>
    have hlonger := @Ending.transferred H firmware _ _ _ missed' booting dir size sent (Nat.succ_lt_succ hn) (.attempt hnot hbefore) hfound
    simpa using hlonger
  | gaveUp hn hbefore hnot' =>
    have hlonger := Ending.gaveUp (Nat.succ_lt_succ hn) (.attempt hnot hbefore) hnot'
    simpa using hlonger
  | @notYet before booting hbefore =>
    have hlonger := @Ending.notYet H firmware _ _ booting (.attempt hnot hbefore)
    simpa using hlonger

/-- The attempts, with what the first one was told about the boot. -/
theorem transcript_tryLoading (rounds : Nat) {booting : Bool} {r : Except String Unit}
    (h : Transcript (H.tryLoading firmware rounds booting) t r) :
    Ending H firmware rounds (⟨.access "/dev/.booting", booting⟩ :: t) r := by
  induction rounds generalizing booting t with
  | zero =>
    obtain ⟨rfl, rfl⟩ := transcript_throw h
    exact @Ending.notYet H firmware 0 [] booting .nil
  | succ rounds ih =>
    rcases transcript_bind h with ⟨loaded, t₁, t₂, rfl, hattempt, hrest⟩ | ⟨e, rfl, hattempt⟩
    · rcases transcript_attempt hattempt with ⟨hloaded, hnot⟩ | ⟨hloaded, dir, missed, size, sent, hfound, rfl⟩
      · obtain rfl := Except.ok.inj hloaded
        cases booting with
        | true =>
          obtain ⟨⟨⟩, t₃, rfl, h₃⟩ := transcript_lift_bind hrest
          obtain ⟨booting, t₄, rfl, h₄⟩ := transcript_lift_bind h₃
          exact .again hnot (ih h₄)
        | false =>
          obtain ⟨⟨⟩, t₃, rfl, h₃⟩ := transcript_lift_bind hrest
          obtain ⟨rfl, rfl⟩ := transcript_pure h₃
          exact @Ending.gaveUp H firmware _ 0 [] t₁ (Nat.succ_pos rounds) .nil hnot
      · obtain rfl := Except.ok.inj hloaded
        obtain ⟨rfl, rfl⟩ := transcript_pure hrest
        rw [List.append_nil]
        exact @Ending.transferred H firmware _ 0 [] missed booting dir size sent (Nat.succ_pos rounds) .nil hfound
    · rcases transcript_attempt hattempt with ⟨hloaded, -⟩ | ⟨hloaded, -⟩ <;> cases hloaded

end FirmwareAnswersAux

/-- What the calls of a child have led a request to: what it is after them, and what they were. Its files could not be opened; or as many
attempts as there may be were all begun while the system was booting, and found nothing; or the last attempt has found the firmware, in
the first directory that has it; or the last attempt was begun after the boot, and has found nothing. -/
inductive Answered (H : FirmwareHandler) (root firmware : String) (rounds : Nat) : List FirmwareEvent → Except String Unit → Prop
  | unopened {t : List FirmwareEvent} (h : requestAfter t = .waiting)
      (hopen : ⟨.openForWriting (root ++ "/loading"), false⟩ ∈ t ∨ ⟨.openForWriting (root ++ "/data"), false⟩ ∈ t) :
      Answered H root firmware rounds t (.ok ())
  | pending {before : List FirmwareEvent} {booting : Bool} (hbefore : StillBooting H firmware rounds before)
      (h : requestAfter (requestOpened root ++ (before ++ [⟨.access "/dev/.booting", booting⟩])) = .waiting) :
      Answered H root firmware rounds (requestOpened root ++ (before ++ [⟨.access "/dev/.booting", booting⟩]))
        (.error "still booting")
  | transferred {n : Nat} {before missed : List FirmwareEvent} {booting : Bool} {dir : String} {size : Nat} {sent : Bool}
      (hn : n < rounds) (hbefore : StillBooting H firmware n before) (hfound : H.FoundFirst firmware dir missed)
      (h : requestAfter (requestOpened root ++
        (before ++ ⟨.access "/dev/.booting", booting⟩ :: missed ++ transferOf (dir ++ firmware) size sent)) =
          if sent then .committed (dir ++ firmware) else .aborted) :
      Answered H root firmware rounds (requestOpened root ++
        (before ++ ⟨.access "/dev/.booting", booting⟩ :: missed ++ transferOf (dir ++ firmware) size sent)) (.ok ())
  | gaveUp {n : Nat} {before missed : List FirmwareEvent} (hn : n < rounds) (hbefore : StillBooting H firmware n before)
      (hnot : H.NotFound firmware missed)
      (h : requestAfter (requestOpened root ++
        (before ++ ⟨.access "/dev/.booting", false⟩ :: missed ++ [⟨.writeLoading "-1", ()⟩])) = .aborted) :
      Answered H root firmware rounds (requestOpened root ++
        (before ++ ⟨.access "/dev/.booting", false⟩ :: missed ++ [⟨.writeLoading "-1", ()⟩])) (.ok ())

namespace FirmwareAnswersAux

open FirmwareHandler FirmwareProg

variable {H : FirmwareHandler} {root firmware : String} {t : List FirmwareEvent}

theorem requestAfter_transfer {before : List FirmwareEvent} (h : Silent before) (file : String) (size : Nat) (sent : Bool) :
    requestAfter (before ++ transferOf file size sent) = if sent then .committed file else .aborted := by
  unfold requestAfter
  rw [List.foldl_append, h.foldl]
  cases sent <;> rfl

theorem requestOpened_silent (root : String) : Silent (requestOpened root) :=
  Silent.cons (fun _ => rfl) (Silent.cons (fun _ => rfl) fun _ he => absurd he List.not_mem_nil)

/-- What the attempts lead the request to. -/
theorem Ending.answered {rounds : Nat} {r : Except String Unit} (h : Ending H firmware rounds t r) :
    Answered H root firmware rounds (requestOpened root ++ t) r := by
  cases h with
  | @transferred n before missed booting dir size sent hn hbefore hfound =>
    have hlooked : Silent (⟨.access "/dev/.booting", booting⟩ :: missed) := (FoundFirst.silent hfound).cons fun _ => rfl
    have hsilent := (requestOpened_silent root).append ((StillBooting.silent hbefore).append hlooked)
    have hrequest := requestAfter_transfer hsilent (dir ++ firmware) size sent
    rw [List.append_assoc (requestOpened root)] at hrequest
    exact .transferred hn hbefore hfound hrequest
  | @gaveUp n before missed hn hbefore hnot =>
    have hlooked : Silent (⟨.access "/dev/.booting", false⟩ :: missed) := (NotFound.silent hnot).cons fun _ => rfl
    have hsilent := (requestOpened_silent root).append ((StillBooting.silent hbefore).append hlooked)
    refine .gaveUp hn hbefore hnot ?_
    unfold requestAfter
    rw [← List.append_assoc (requestOpened root), List.foldl_append, hsilent.foldl]
    rfl
  | @notYet before booting hbefore =>
    have hasked : Silent [⟨.access "/dev/.booting", booting⟩] :=
      Silent.cons (fun _ => rfl) fun e he => absurd he List.not_mem_nil
    have hsilent := (requestOpened_silent root).append ((StillBooting.silent hbefore).append hasked)
    refine .pending hbefore ?_
    unfold requestAfter
    rw [hsilent.foldl]

end FirmwareAnswersAux

open FirmwareAnswersAux FirmwareHandler

variable {H : FirmwareHandler} {root firmware : String}

/-- A system that boots during the first attempt, and has its firmware in the second directory then. -/
def bootingSystem : (op : FirmwareCall) → Nat → op.Ans × Nat
  | .access _, asked => (decide (asked = 0), asked + 1)
  | .openFirmware file, asked => (decide (asked = 2 ∧ file = "/vendor/firmware/f.bin"), asked)
  | .fstat _, asked => (some 512, asked)
  | .glob _, asked => ([], asked)
  | .socketpair _, asked => (true, asked)
  | .fork _ _ _, asked => (true, asked)
  | .waitpid, asked => (none, asked)
  | .readStdout, asked => (none, asked)
  | .readStderr, asked => (none, asked)
  | .openForWriting _, asked => (true, asked)
  | .sendfile _ _, asked => (true, asked)
  | .signalDefault, asked => ((), asked)
  | .writeLoading _, asked => ((), asked)
  | .sleep _, asked => ((), asked)

namespace FirmwareAnswersAux

variable {t : List FirmwareEvent} {firmware : String}

/-- The files that some calls open are those of the name in a firmware directory, configured or listed by one of all calls. -/
structure LooksFor (H : FirmwareHandler) (firmware : String) (all t : List FirmwareEvent) : Prop where
  files : ∀ file, ∀ ok : Bool, ⟨.openFirmware file, ok⟩ ∈ t → ∃ dir, file = dir ++ firmware ∧
    (dir ∈ H.firmwareDirectories ∨ ∃ found : List String, ⟨.glob "/apex/*/etc/firmware/", found⟩ ∈ all ∧ dir ∈ apexDirectories found)

variable {all t' : List FirmwareEvent}

theorem LooksFor.append (h : LooksFor H firmware all t) (h' : LooksFor H firmware all t') : LooksFor H firmware all (t ++ t') := by
  refine ⟨fun file ok hmem => ?_⟩
  rcases List.mem_append.1 hmem with hmem | hmem
  · exact h.files file ok hmem
  · exact h'.files file ok hmem

/-- A call that opens no firmware. -/
theorem LooksFor.cons {e : FirmwareEvent} (he : ∀ file, ∀ ok : Bool, e ≠ ⟨.openFirmware file, ok⟩) (h : LooksFor H firmware all t) :
    LooksFor H firmware all (e :: t) := by
  refine ⟨fun file ok hmem => ?_⟩
  rcases List.mem_cons.1 hmem with heq | hmem
  · exact absurd heq.symm (he file ok)
  · exact h.files file ok hmem

theorem looksFor_nil : LooksFor H firmware all [] := ⟨fun _ _ hmem => absurd hmem List.not_mem_nil⟩

theorem NotIn.files {dirs : List String} (h : NotIn firmware dirs t) :
    ∀ file, ∀ ok : Bool, ⟨.openFirmware file, ok⟩ ∈ t → ∃ dir ∈ dirs, file = dir ++ firmware := by
  induction h with
  | nil => exact fun file ok hmem => absurd hmem List.not_mem_nil
  | @missing dir dirs t _ ih =>
    intro file ok hmem
    rcases List.mem_cons.1 hmem with heq | hmem
    · cases heq
      exact ⟨dir, List.mem_cons_self, rfl⟩
    · obtain ⟨dir', hdir', hfile⟩ := ih file ok hmem
      exact ⟨dir', List.mem_cons_of_mem _ hdir', hfile⟩
  | @unreadable dir dirs t _ ih =>
    intro file ok hmem
    rcases List.mem_cons.1 hmem with heq | hmem
    · cases heq
      exact ⟨dir, List.mem_cons_self, rfl⟩
    · rcases List.mem_cons.1 hmem with heq | hmem
      · cases heq
      · obtain ⟨dir', hdir', hfile⟩ := ih file ok hmem
        exact ⟨dir', List.mem_cons_of_mem _ hdir', hfile⟩

/-- The configured directories. -/
theorem looksFor_configured {dirs : List String} (hdirs : ∀ d ∈ dirs, d ∈ H.firmwareDirectories) (h : NotIn firmware dirs t) :
    LooksFor H firmware all t := by
  refine ⟨fun file ok hmem => ?_⟩
  obtain ⟨dir, hdir, hfile⟩ := NotIn.files h file ok hmem
  exact ⟨dir, hfile, .inl (hdirs dir hdir)⟩

/-- The directories of APEXes. -/
theorem looksFor_apexes {found dirs : List String} (hfound : ⟨.glob "/apex/*/etc/firmware/", found⟩ ∈ all)
    (hdirs : ∀ d ∈ dirs, d ∈ apexDirectories found) (h : NotIn firmware dirs t) : LooksFor H firmware all t := by
  refine ⟨fun file ok hmem => ?_⟩
  obtain ⟨dir, hdir, hfile⟩ := NotIn.files h file ok hmem
  exact ⟨dir, hfile, .inr ⟨found, hfound, hdirs dir hdir⟩⟩

theorem looksFor_notFound (h : H.NotFound firmware t) (hall : ∀ e ∈ t, e ∈ all) : LooksFor H firmware all t := by
  obtain ⟨configured, found, apexes, hconfigured, hapexes, rfl⟩ := h
  refine (looksFor_configured (fun _ => id) hconfigured).append (LooksFor.cons (fun file ok heq => by cases heq) ?_)
  exact looksFor_apexes (hall _ (by simp)) (fun _ => id) hapexes

/-- The transfer opens the file it is of. -/
theorem looksFor_transfer {dir : String} {size : Nat} {sent : Bool}
    (hdir : dir ∈ H.firmwareDirectories ∨ ∃ found : List String, ⟨.glob "/apex/*/etc/firmware/", found⟩ ∈ all ∧ dir ∈ apexDirectories found) :
    LooksFor H firmware all (transferOf (dir ++ firmware) size sent) := by
  refine ⟨fun file ok hmem => ⟨dir, ?_, hdir⟩⟩
  simp only [transferOf, List.mem_cons, List.not_mem_nil, or_false] at hmem
  obtain heq | heq | heq | heq | heq := hmem <;> cases heq
  rfl

theorem looksFor_foundFirst {dir : String} (h : H.FoundFirst firmware dir t) (size : Nat) (sent : Bool) (hall : ∀ e ∈ t, e ∈ all) :
    LooksFor H firmware all (t ++ transferOf (dir ++ firmware) size sent) := by
  rcases h with ⟨before, after, hdirs, hnot⟩ | ⟨configured, found, before, after, apexes, hconfigured, hdirs, hapexes, rfl⟩
  · refine (looksFor_configured (fun d hd => hdirs ▸ List.mem_append_left _ hd) hnot).append (looksFor_transfer (.inl ?_))
    exact hdirs ▸ List.mem_append_right _ List.mem_cons_self
  · have hglob := hall ⟨.glob "/apex/*/etc/firmware/", found⟩ (by simp)
    refine LooksFor.append ?_ (looksFor_transfer (.inr ⟨found, hglob, hdirs ▸ List.mem_append_right _ List.mem_cons_self⟩))
    refine (looksFor_configured (fun _ => id) hconfigured).append (LooksFor.cons (fun file ok heq => by cases heq) ?_)
    exact looksFor_apexes hglob (fun d hd => hdirs ▸ List.mem_append_left _ hd) hapexes

theorem StillBooting.looksFor {n : Nat} (h : StillBooting H firmware n t) (hall : ∀ e ∈ t, e ∈ all) : LooksFor H firmware all t := by
  induction h with
  | nil => exact looksFor_nil
  | attempt hnot _ ih =>
    refine LooksFor.cons (fun file ok heq => by cases heq) ((looksFor_notFound hnot fun e he => hall e (by simp [he])).append ?_)
    exact LooksFor.cons (fun file ok heq => by cases heq) (ih fun e he => hall e (by simp [he]))

theorem Ending.looksFor {rounds : Nat} {r : Except String Unit} (h : Ending H firmware rounds t r) (hall : ∀ e ∈ t, e ∈ all) :
    LooksFor H firmware all t := by
  cases h with
  | transferred _ hbefore hfound =>
    rw [List.append_assoc]
    refine (StillBooting.looksFor hbefore fun e he => hall e (by simp [he])).append ?_
    exact LooksFor.cons (fun file ok heq => by cases heq) (looksFor_foundFirst hfound _ _ fun e he => hall e (by simp [he]))
  | gaveUp _ hbefore hnot =>
    rw [List.append_assoc]
    refine (StillBooting.looksFor hbefore fun e he => hall e (by simp [he])).append ?_
    refine LooksFor.cons (fun file ok heq => by cases heq) ((looksFor_notFound hnot fun e he => hall e (by simp [he])).append ?_)
    exact looksFor_nil.cons fun file ok heq => by cases heq
  | notYet hbefore =>
    refine (StillBooting.looksFor hbefore fun e he => hall e (by simp [he])).append ?_
    exact looksFor_nil.cons fun file ok heq => by cases heq

theorem looksFor_process {root : String} {rounds : Nat} {r : Except String Unit}
    (h : Transcript (H.processFirmwareEvent root firmware rounds) t r) (hall : ∀ e ∈ t, e ∈ all) : LooksFor H firmware all t := by
  obtain ⟨opened, t₁, rfl, h₁⟩ := transcript_lift_bind h
  refine LooksFor.cons (fun file ok heq => by cases heq) ?_
  split at h₁
  · obtain ⟨rfl, rfl⟩ := transcript_pure h₁
    exact looksFor_nil
  · obtain ⟨opened', t₂, rfl, h₂⟩ := transcript_lift_bind h₁
    refine LooksFor.cons (fun file ok heq => by cases heq) ?_
    split at h₂
    · obtain ⟨rfl, rfl⟩ := transcript_pure h₂
      exact looksFor_nil
    · obtain ⟨booting, t₃, rfl, h₃⟩ := transcript_lift_bind h₂
      exact (transcript_tryLoading rounds h₃).looksFor fun e he => hall e (by simp at he ⊢; tauto)

/-- Calls that open no firmware, and a result that is no path unless a handler ended well and has printed it. -/
structure Printed (t : List FirmwareEvent) (r : Except String (Result String)) : Prop where
  files : ∀ file, ∀ ok : Bool, ⟨.openFirmware file, ok⟩ ∉ t
  result : ∃ result, r = .ok result ∧ ∀ path, result = .ok path →
    ⟨.waitpid, some (.exited 0)⟩ ∈ t ∧ ∃ output : String, ⟨.readStdout, some output⟩ ∈ t ∧ path = trim output

theorem Printed.refused (e : ResultError) : Printed [] (.ok (.error e)) where
  files := fun file ok hmem => absurd hmem List.not_mem_nil
  result := ⟨_, rfl, fun path hpath => by cases hpath⟩

theorem Printed.cons {e : FirmwareEvent} {r : Except String (Result String)} (he : ∀ file, ∀ ok : Bool, e ≠ ⟨.openFirmware file, ok⟩)
    (h : Printed t r) : Printed (e :: t) r where
  files := by
    intro file ok hmem
    rcases List.mem_cons.1 hmem with heq | hmem
    · exact he file ok heq.symm
    · exact h.files file ok hmem
  result := by
    obtain ⟨result, hr, hpath⟩ := h.result
    refine ⟨result, hr, fun path hp => ?_⟩
    obtain ⟨hwaited, output, houtput, htrim⟩ := hpath path hp
    exact ⟨List.mem_cons_of_mem _ hwaited, output, List.mem_cons_of_mem _ houtput, htrim⟩

theorem transcript_external {handler : String} {uid : Nat} {uevent : Uevent} {r : Except String (Result String)}
    (h : Transcript (runExternalHandler handler uid uevent) t r) : Printed t r := by
  have hother : ∀ {op : FirmwareCall} {a : op.Ans}, (∀ file, op ≠ .openFirmware file) →
      ∀ file, ∀ ok : Bool, (⟨op, a⟩ : FirmwareEvent) ≠ ⟨.openFirmware file, ok⟩ := by
    intro op a hop file ok heq
    exact hop file (congrArg Sigma.fst heq)
  unfold runExternalHandler at h
  obtain ⟨ok, t₁, rfl, h₁⟩ := transcript_lift_bind h
  refine Printed.cons (hother (by simp)) ?_
  split at h₁
  · obtain ⟨rfl, rfl⟩ := transcript_pure h₁
    exact .refused _
  · obtain ⟨ok', t₂, rfl, h₂⟩ := transcript_lift_bind h₁
    refine Printed.cons (hother (by simp)) ?_
    split at h₂
    · obtain ⟨rfl, rfl⟩ := transcript_pure h₂
      exact .refused _
    · obtain ⟨⟨⟩, t₃, rfl, h₃⟩ := transcript_lift_bind h₂
      obtain ⟨forked, t₄, rfl, h₄⟩ := transcript_lift_bind h₃
      refine Printed.cons (hother (by simp)) (Printed.cons (hother (by simp)) ?_)
      split at h₄
      · obtain ⟨rfl, rfl⟩ := transcript_pure h₄
        exact .refused _
      · obtain ⟨waited, t₅, rfl, h₅⟩ := transcript_lift_bind h₄
        split at h₅
        · obtain ⟨rfl, rfl⟩ := transcript_pure h₅
          exact Printed.cons (hother (by simp)) (.refused _)
        · next status =>
          obtain ⟨content, t₆, rfl, h₆⟩ := transcript_lift_bind h₅
          split at h₆
          · obtain ⟨rfl, rfl⟩ := transcript_pure h₆
            exact Printed.cons (hother (by simp)) (Printed.cons (hother (by simp)) (.refused _))
          · next output =>
            obtain ⟨errors, t₇, rfl, h₇⟩ := transcript_lift_bind h₆
            obtain ⟨rfl, rfl⟩ := transcript_pure h₇
            refine ⟨fun file ok hmem => ?_, _, rfl, fun path hpath => ?_⟩
            · simp only [List.mem_cons, List.not_mem_nil, or_false] at hmem
              obtain heq | heq | heq := hmem <;> exact hother (by simp) file ok heq.symm
            · split at hpath
              · obtain rfl := Except.ok.inj hpath
                exact ⟨List.mem_cons_self, output, by simp, rfl⟩
              · cases hpath
              · cases hpath
              · cases hpath

/-- The name that is looked for: the kernel's, or what the first handler that matches has printed. -/
theorem transcript_getFirmwarePath {uevent : Uevent} {r : Except String String} (h : Transcript (H.getFirmwarePath uevent) t r) :
    (∀ file, ∀ ok : Bool, ⟨.openFirmware file, ok⟩ ∉ t) ∧ ∃ name, r = .ok name ∧
      (name = uevent.firmware ∨ contains name ".." = false ∧ ∃ handler ∈ H.externalFirmwareHandlers,
        handler.match.matches H.fnmatch uevent.path = true ∧
        ⟨.waitpid, some (.exited 0)⟩ ∈ t ∧ ∃ output : String, ⟨.readStdout, some output⟩ ∈ t ∧ name = trim output) := by
  unfold getFirmwarePath at h
  split at h
  · obtain ⟨rfl, rfl⟩ := transcript_pure h
    exact ⟨fun file ok hmem => absurd hmem List.not_mem_nil, _, rfl, .inl rfl⟩
  · next handler hfind =>
    rcases transcript_bind h with ⟨result, t₁, t₂, rfl, hrun, hrest⟩ | ⟨e, rfl, hrun⟩
    · obtain ⟨rfl, rfl⟩ := transcript_pure hrest
      have hprinted := transcript_external hrun
      rw [List.append_nil]
      refine ⟨hprinted.files, _, rfl, ?_⟩
      obtain ⟨result', hresult, hpath⟩ := hprinted.result
      obtain rfl := Except.ok.inj hresult
      cases result with
      | error e => exact .inl rfl
      | ok path =>
        dsimp only
        split
        · exact .inl rfl
        · next hdots =>
          obtain ⟨hwaited, houtput⟩ := hpath path rfl
          exact .inr ⟨by simpa using hdots, handler, List.mem_of_find?_eq_some hfind, by simpa using List.find?_some hfind, hwaited, houtput⟩
    · obtain ⟨result, hresult, -⟩ := (transcript_external hrun).result
      cases hresult

end FirmwareAnswersAux

/-- The files that a child opens for a uevent all have one name, each in a directory that is configured or that belongs to an APEX. The
name is the one the kernel asks for; only what a matching external handler has printed before it ended well may stand in its place, and
that contains no `..`. -/
theorem firmware_path_confined {uevent : Uevent} {rounds : Nat} {m : FirmwareProg Unit} (hm : H.handleUevent uevent rounds = some m)
    {t : List FirmwareEvent} {r : Except String Unit} (h : Transcript m t r) :
    ∃ name, (∀ file, ∀ ok : Bool, ⟨.openFirmware file, ok⟩ ∈ t → ∃ dir, file = dir ++ name ∧
        (dir ∈ H.firmwareDirectories ∨
          ∃ found : List String, ⟨.glob "/apex/*/etc/firmware/", found⟩ ∈ t ∧ dir ∈ found ∧ hasChar dir '@' = false)) ∧
      (name = uevent.firmware ∨ contains name ".." = false ∧ ∃ handler ∈ H.externalFirmwareHandlers,
        handler.match.matches H.fnmatch uevent.path = true ∧
        ⟨.waitpid, some (.exited 0)⟩ ∈ t ∧ ∃ output : String, ⟨.readStdout, some output⟩ ∈ t ∧ name = trim output) := by
  unfold handleUevent at hm
  split at hm
  · cases hm
  · obtain rfl := Option.some.inj hm
    rcases transcript_bind h with ⟨name, t₁, t₂, rfl, hname, hprocess⟩ | ⟨e, rfl, hname⟩
    · obtain ⟨hfiles, name', hok, hsource⟩ := transcript_getFirmwarePath hname
      obtain rfl := Except.ok.inj hok
      have hlooks : LooksFor H name (t₁ ++ t₂) t₂ := looksFor_process hprocess fun e he => List.mem_append_right _ he
      refine ⟨name, fun file ok hmem => ?_, hsource.imp_right ?_⟩
      · have hmem₂ := (List.mem_append.1 hmem).resolve_left (hfiles file ok)
        obtain ⟨dir, hfile, hdir⟩ := hlooks.files file ok hmem₂
        refine ⟨dir, hfile, hdir.imp_right ?_⟩
        rintro ⟨found, hglob, hapex⟩
        obtain ⟨hfound, hat⟩ := List.mem_filter.1 hapex
        exact ⟨found, hglob, hfound, by simpa using hat⟩
      · rintro ⟨hdots, handler, hhandler, hmatch, hwaited, output, houtput, htrim⟩
        exact ⟨hdots, handler, hhandler, hmatch, List.mem_append_left _ hwaited, output, List.mem_append_left _ houtput, htrim⟩
    · obtain ⟨-, name', hok, -⟩ := transcript_getFirmwarePath hname
      cases hok

/-- A handler that cannot be waited for. -/
def unwaitedRequest : FirmwareHandler where
  firmwareDirectories := ["/etc/firmware/"]
  externalFirmwareHandlers := [externalFirmwareHandler "/devices/wifi*" 1000 "/vendor/bin/pick"]

theorem firmware_path_confined_unwaited :
    ∃ t, requestAfter t = .aborted ∧
      ∃ name, ∀ file, ∀ ok : Bool, ⟨.openFirmware file, ok⟩ ∈ t → ∃ dir, file = dir ++ name ∧
        (dir ∈ unwaitedRequest.firmwareDirectories ∨
          ∃ found : List String, ⟨.glob "/apex/*/etc/firmware/", found⟩ ∈ t ∧ dir ∈ found ∧ hasChar dir '@' = false) := by
  let uevent : Uevent := { subsystem := "firmware", action := "add", path := "/devices/wifi0", firmware := "f.bin" }
  obtain ⟨m, hm⟩ := Option.isSome_iff_exists.1 (show (unwaitedRequest.handleUevent uevent 2).isSome = true from rfl)
  obtain ⟨t, hnoted, ht⟩ := transcript_record bootingSystem m (0, [])
  obtain ⟨name, hfiles, -⟩ := firmware_path_confined hm ht
  refine ⟨t, ?_, name, hfiles⟩
  have hrequest : ((unwaitedRequest.handleUevent uevent 2).map fun m => requestAfter (m.run (noting bootingSystem) (0, [])).2.2) =
      some .aborted := by decide
  rw [hm, Option.map_some, hnoted] at hrequest
  exact Option.some.inj hrequest

end Innit
