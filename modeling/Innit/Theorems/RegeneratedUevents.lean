import Innit.Lib.DepthFirst
import Innit.ColdBoot

/-!
# The uevents that are regenerated

`RegenerateUevents` pokes the directories of `/sys/devices` in a preorder. Whatever the kernel answers, every uevent that comes in is
handed to the callback, once and in its order, or is still in the socket at the end; the walk goes to its end unless the callback
stops it, and then nothing more is poked or read.
-/

namespace Innit

open Lib

/-! ## The walk and the stream -/

/-- A directory of the walk: its path, whether it can be poked, and its entries. -/
structure SysDir where
  path : String
  uevent : Bool
  entries : List SysEntry

namespace SysDir

/-- What is poked for a directory itself. -/
def label (d : SysDir) : List String := if d.uevent then [d.path] else []

/-- The directories that the walk enters from a directory. -/
def next (d : SysDir) : List SysDir :=
  d.entries.filterMap (fun e => match e with
    | .entry name isDir opens uevent entries =>
      if isDir ∧ name.toList.head? ≠ some '.' ∧ opens then some ⟨d.path ++ "/" ++ name, uevent, entries⟩ else none)

end SysDir

/-- The uevent of a datagram, if it has one. -/
def Datagram.uevent? (d : Datagram) : Option Uevent := if d.readUevent.1 = .success then some d.readUevent.2 else none

/-- The uevents of some datagrams. -/
def uevents (ds : List Datagram) : List Uevent := ds.filterMap Datagram.uevent?

/-- What has come in with some pokes, after others. -/
def arrived (arrivals : Arrivals) (before : List String) : List String → List Datagram
  | [] => []
  | path :: more => arrivals (before ++ [path]) ++ arrived arrivals (before ++ [path]) more

/-- A callback has been handed some uevents: it said to go on after all of them, or all but the last. -/
inductive Handed {σ : Type} (callback : ListenerCallback σ) : List Uevent → σ → ListenerAction → σ → Prop
  | nil {s : σ} : Handed callback [] s .continue s
  | stop {u : Uevent} {s s' : σ} (h : callback u s = (.stop, s')) : Handed callback [u] s .stop s'
  | cons {u : Uevent} {us : List Uevent} {s s' s'' : σ} {a : ListenerAction} (h : callback u s = (.continue, s'))
      (hrest : Handed callback us s' a s'') : Handed callback (u :: us) s a s''

theorem Handed.append {σ : Type} {callback : ListenerCallback σ} {us us' : List Uevent} {s s' s'' : σ} {a : ListenerAction} (h : Handed callback us s .continue s')
    (h' : Handed callback us' s' a s'') : Handed callback (us ++ us') s a s'' := by
  generalize hgo : ListenerAction.continue = go at h
  induction h with
  | nil => exact h'
  | stop _ => cases hgo
  | cons hu _ ih => exact .cons hu (ih h' hgo)

namespace RegeneratedUeventsAux

/-- A walk over some paths: how far it has come, and what the callback was handed of what came in. -/
structure Walked {σ : Type} (callback : ListenerCallback σ) (arrivals : Arrivals) (paths : List String) (l : Listening σ)
    (action : ListenerAction) (l' : Listening σ) : Prop where
  stream : ∃ done rest seen, paths = done ++ rest ∧ l'.pokes = l.pokes ++ done ∧ (action = .continue → rest = []) ∧
    uevents (l.socket ++ arrived arrivals l.pokes done) = seen ++ uevents l'.socket ∧ Handed callback seen l.state action l'.state

variable {σ : Type} {callback : ListenerCallback σ} {arrivals : Arrivals} {l l' l'' : Listening σ} {paths paths' : List String}

theorem uevents_append (ds ds' : List Datagram) : uevents (ds ++ ds') = uevents ds ++ uevents ds' := List.filterMap_append

theorem arrived_append (before done more : List String) :
    arrived arrivals before (done ++ more) = arrived arrivals before done ++ arrived arrivals (before ++ done) more := by
  induction done generalizing before with
  | nil => simp [arrived]
  | cons path done ih => simp [arrived, ih]

/-- The drained socket: what is handed to the callback, and what is left. -/
theorem drain_handed (socket : List Datagram) (s : σ) : ∃ seen, uevents socket = seen ++ uevents (drain callback socket s).2.1 ∧
    Handed callback seen s (drain callback socket s).1 (drain callback socket s).2.2 := by
  induction socket generalizing s with
  | nil => exact ⟨[], rfl, .nil⟩
  | cons d socket ih =>
    unfold drain uevents
    rw [List.filterMap_cons, Datagram.uevent?]
    obtain ⟨result, u⟩ := d.readUevent
    cases result with
    | failed => exact ⟨[], rfl, .nil⟩
    | invalid => exact ih s
    | success =>
      cases hcallback : callback u s with
      | mk action s' =>
        cases action with
        | stop => exact ⟨[u], by simp [hcallback], by simpa [hcallback] using .stop hcallback⟩
        | «continue» =>
          obtain ⟨seen, hstream, hhanded⟩ := ih s'
          refine ⟨u :: seen, ?_, ?_⟩
          · simpa [hcallback, uevents] using hstream
          · simpa [hcallback] using .cons hcallback hhanded

theorem Walked.nil (l : Listening σ) : Walked callback arrivals [] l .continue l :=
  ⟨[], [], [], rfl, by simp, fun _ => rfl, by simp [arrived], .nil⟩

variable (callback arrivals) in
/-- A poke is a walk over one path. -/
theorem walked_poke (path : String) (l : Listening σ) :
    Walked callback arrivals [path] l (poke callback arrivals path l).1 (poke callback arrivals path l).2 := by
  obtain ⟨seen, hstream, hhanded⟩ := @drain_handed σ callback (l.socket ++ arrivals (l.pokes ++ [path])) l.state
  refine ⟨[path], [], seen, rfl, rfl, fun _ => rfl, ?_, hhanded⟩
  simp only [arrived, List.append_nil]
  exact hstream

/-- A walk, and then another. -/
theorem Walked.append {action : ListenerAction} (h : Walked callback arrivals paths l .continue l')
    (h' : Walked callback arrivals paths' l' action l'') : Walked callback arrivals (paths ++ paths') l action l'' := by
  obtain ⟨done, rest, seen, rfl, hpokes, hrest, hstream, hhanded⟩ := h
  obtain ⟨done', rest', seen', rfl, hpokes', hrest', hstream', hhanded'⟩ := h'
  obtain rfl := hrest rfl
  refine ⟨done ++ done', rest', seen ++ seen', by simp, by rw [hpokes', hpokes, List.append_assoc], hrest', ?_, hhanded.append hhanded'⟩
  rw [arrived_append, ← List.append_assoc, uevents_append, hstream, ← hpokes, List.append_assoc, ← uevents_append, hstream',
    List.append_assoc]

/-- A walk that is stopped does not go on. -/
theorem Walked.stopped (h : Walked callback arrivals paths l .stop l') (paths' : List String) :
    Walked callback arrivals (paths ++ paths') l .stop l' := by
  obtain ⟨done, rest, seen, rfl, hpokes, -, hstream, hhanded⟩ := h
  exact ⟨done, rest ++ paths', seen, by simp, hpokes, fun hgo => absurd hgo (by decide), hstream, hhanded⟩

/-! ## The tree -/

/-- The directories that the loop over some entries enters. -/
def dirsOf (path : String) (entries : List SysEntry) : List SysDir := SysDir.next ⟨path, false, entries⟩

theorem dirsOf_cons (path name : String) (isDir opens uevent : Bool) (entries more : List SysEntry) :
    dirsOf path (.entry name isDir opens uevent entries :: more) =
      (if isDir ∧ name.toList.head? ≠ some '.' ∧ opens then [⟨path ++ "/" ++ name, uevent, entries⟩] else []) ++ dirsOf path more := by
  unfold dirsOf SysDir.next
  rw [List.filterMap_cons]
  dsimp only
  by_cases h : isDir = true ∧ name.toList.head? ≠ some '.' ∧ opens = true
  · rw [if_pos h, if_pos h]
    rfl
  · rw [if_neg h, if_neg h]
    rfl

/-- The directories below some entries have a preorder. -/
theorem exists_order (path : String) : (entries : List SysEntry) → ∃ order, DepthFirst SysDir.label SysDir.next (dirsOf path entries) order
  | [] => ⟨[], .nil⟩
  | .entry name isDir opens uevent entries :: more => by
    obtain ⟨after, hafter⟩ := exists_order path more
    obtain ⟨below, hbelow⟩ := exists_order (path ++ "/" ++ name) entries
    rw [dirsOf_cons]
    split
    · exact ⟨_, .cons hbelow hafter⟩
    · exact ⟨after, hafter⟩

/-- An entry that is not entered. -/
theorem entries_skip {name : String} {isDir opens uevent : Bool} {entries more : List SysEntry} {path : String}
    (h : ¬(isDir = true ∧ name.toList.head? ≠ some '.' ∧ opens = true)) (l : Listening σ) :
    regenerateUeventsForEntries callback arrivals path (.entry name isDir opens uevent entries :: more) l =
      regenerateUeventsForEntries callback arrivals path more l := by
  rw [regenerateUeventsForEntries, if_pos]
  by_contra hnone
  simp only [not_or, Bool.not_eq_true'] at hnone
  exact h ⟨by simpa using hnone.1, hnone.2.1, by simpa using hnone.2.2⟩

/-- An entry that is entered. -/
theorem entries_enter {name : String} {isDir opens uevent : Bool} {entries more : List SysEntry} {path : String}
    (h : isDir = true ∧ name.toList.head? ≠ some '.' ∧ opens = true) (l : Listening σ) :
    regenerateUeventsForEntries callback arrivals path (.entry name isDir opens uevent entries :: more) l =
      match regenerateUeventsForDir callback arrivals (path ++ "/" ++ name) uevent entries l with
      | (.stop, l) => (.stop, l)
      | (.continue, l) => regenerateUeventsForEntries callback arrivals path more l := by
  have henter : ¬((!isDir) = true ∨ name.toList.head? = some '.' ∨ (!opens) = true) := by
    simp [h.1, h.2.1, h.2.2]
  rw [regenerateUeventsForEntries]
  exact if_neg henter

/-- A directory: its own poke, and the loop over its entries. -/
theorem walked_dir {path : String} (uevent : Bool) {entries : List SysEntry} {below : List String}
    (hbelow : ∀ l, Walked callback arrivals below l (regenerateUeventsForEntries callback arrivals path entries l).1
      (regenerateUeventsForEntries callback arrivals path entries l).2) (l : Listening σ) :
    Walked callback arrivals (SysDir.label ⟨path, uevent, entries⟩ ++ below) l
      (regenerateUeventsForDir callback arrivals path uevent entries l).1
      (regenerateUeventsForDir callback arrivals path uevent entries l).2 := by
  unfold regenerateUeventsForDir SysDir.label
  cases uevent with
  | false => exact hbelow l
  | true =>
    have hpoke := walked_poke callback arrivals path l
    simp only [if_true]
    generalize poke callback arrivals path l = r at hpoke
    obtain ⟨action, l'⟩ := r
    cases action with
    | stop => exact hpoke.stopped _
    | «continue» => exact hpoke.append (hbelow l')

/-- The loop over some entries walks over the directories that it enters. -/
theorem walked_entries {dirs : List SysDir} {order : List String} (horder : DepthFirst SysDir.label SysDir.next dirs order) (path : String)
    (entries : List SysEntry) (hdirs : dirsOf path entries = dirs) (l : Listening σ) :
    Walked callback arrivals order l (regenerateUeventsForEntries callback arrivals path entries l).1
      (regenerateUeventsForEntries callback arrivals path entries l).2 := by
  induction horder generalizing path entries l with
  | nil =>
    induction entries generalizing l with
    | nil =>
      rw [regenerateUeventsForEntries]
      exact .nil l
    | cons e more ih =>
      obtain ⟨name, isDir, opens, uevent, entries⟩ := e
      rw [dirsOf_cons] at hdirs
      obtain ⟨hskip, hdirs⟩ := List.append_eq_nil_iff.1 hdirs
      rw [entries_skip (by simpa using hskip)]
      exact ih hdirs l
  | @cons d ds below after hbelow hafter ihbelow ihafter =>
    induction entries generalizing l with
    | nil => cases hdirs
    | cons e more ih =>
      obtain ⟨name, isDir, opens, uevent, entries⟩ := e
      rw [dirsOf_cons] at hdirs
      by_cases henter : isDir = true ∧ name.toList.head? ≠ some '.' ∧ opens = true
      · rw [if_pos henter] at hdirs
        obtain ⟨rfl, hmore⟩ := List.cons.inj hdirs
        have hdir := walked_dir uevent (fun l => ihbelow _ entries rfl l) l
        rw [entries_enter henter]
        generalize hr : regenerateUeventsForDir callback arrivals (path ++ "/" ++ name) uevent entries l = r at hdir
        obtain ⟨action, l'⟩ := r
        cases action with
        | stop => exact hdir.stopped _
        | «continue» => exact hdir.append (ihafter path more hmore l')
      · rw [if_neg henter] at hdirs
        rw [entries_skip henter]
        exact ih hdirs l

variable (callback arrivals) in
/-- A walk from a directory. -/
theorem walked_path (path : String) (uevent : Bool) (entries : List SysEntry) (l : Listening σ) :
    ∃ order, DepthFirst SysDir.label SysDir.next [⟨path, uevent, entries⟩] order ∧
      Walked callback arrivals order l (regenerateUeventsForPath callback arrivals path (some (uevent, entries)) l).1
        (regenerateUeventsForPath callback arrivals path (some (uevent, entries)) l).2 := by
  obtain ⟨below, hbelow⟩ := exists_order path entries
  have hentries : ∀ l, Walked callback arrivals below l (regenerateUeventsForEntries callback arrivals path entries l).1
      (regenerateUeventsForEntries callback arrivals path entries l).2 := walked_entries hbelow path entries rfl
  exact ⟨_, .single hbelow, walked_dir uevent hentries l⟩

end RegeneratedUeventsAux

open RegeneratedUeventsAux

/-- For every tree, every callback and whatever comes in: the directories that can be poked have a preorder, and the walk pokes them in it,
all of them unless the callback stops it. The uevents that were in the socket or came in with the pokes are those that the callback was
handed, in their order, followed by those that are left in the socket; the callback said to go on after each of them but the last one,
and the walk was stopped if and only if it was stopped by that one. -/
theorem regenerated_uevents_handed {σ : Type} (callback : ListenerCallback σ) (arrivals : Arrivals) (path : String) (uevent : Bool)
    (entries : List SysEntry) (l : Listening σ) :
    let r := regenerateUeventsForPath callback arrivals path (some (uevent, entries)) l
    ∃ order done rest seen, DepthFirst SysDir.label SysDir.next [⟨path, uevent, entries⟩] order ∧
      order = done ++ rest ∧ r.2.pokes = l.pokes ++ done ∧ (r.1 = .continue → rest = []) ∧
      uevents (l.socket ++ arrived arrivals l.pokes done) = seen ++ uevents r.2.socket ∧
      Handed callback seen l.state r.1 r.2.state := by
  intro r
  obtain ⟨order, horder, hwalk⟩ := walked_path callback arrivals path uevent entries l
  obtain ⟨done, rest, seen, hsplit, hpokes, hrest, hstream, hhanded⟩ := hwalk.stream
  exact ⟨order, done, rest, seen, horder, hsplit, hpokes, hrest, hstream, hhanded⟩

/-! ## The cold boot and the main loop -/

/-- What comes in while the socket is polled, up to a timeout. -/
def polled (answers : List (Nat × PollAnswer)) : List Datagram :=
  (answers.takeWhile (fun a => a.2 ≠ .timeout)).flatMap (fun a => match a.2 with
    | .ready arrived => arrived
    | _ => [])

namespace RegeneratedUeventsAux

/-- What the callback that queues is handed is in the queue, and it never stops. -/
theorem Handed.queued {us queue queue' : List Uevent} {a : ListenerAction} (h : Handed queueUevent us queue a queue') :
    a = .continue ∧ queue' = queue ++ us := by
  induction h with
  | nil => exact ⟨rfl, (List.append_nil _).symm⟩
  | stop h => cases h
  | cons h _ ih =>
    cases h
    exact ⟨ih.1, by rw [ih.2, List.append_assoc]; rfl⟩

/-- The main loop: what it has handled, and what is left in the socket. -/
theorem poll_queued (answers : List (Nat × PollAnswer)) (l : Listening (List Uevent)) :
    ∃ handled, (poll queueUevent none answers l).2.state = l.state ++ handled ∧
      uevents (l.socket ++ polled answers) = handled ++ uevents (poll queueUevent none answers l).2.socket := by
  induction answers generalizing l with
  | nil => exact ⟨[], by simp [poll], by simp [poll, polled]⟩
  | cons answer answers ih =>
    obtain ⟨elapsed, answer⟩ := answer
    cases answer with
    | timeout => exact ⟨[], by simp [poll], by simp [poll, polled]⟩
    | failed =>
      obtain ⟨handled, hstate, hstream⟩ := ih l
      exact ⟨handled, by simpa [poll] using hstate, by simpa [poll, polled] using hstream⟩
    | ready ds =>
      obtain ⟨seen, hseen, hhanded⟩ := @drain_handed _ queueUevent (l.socket ++ ds) l.state
      obtain ⟨hgo, hqueue⟩ := Handed.queued hhanded
      generalize hdrain : drain queueUevent (l.socket ++ ds) l.state = r at hseen hgo hqueue
      obtain ⟨action, socket, s⟩ := r
      obtain rfl := hgo
      obtain rfl : s = l.state ++ seen := hqueue
      obtain ⟨handled, hstate, hstream⟩ := ih { l with socket := socket, state := l.state ++ seen }
      refine ⟨seen ++ handled, ?_, ?_⟩
      · simp only [poll, Option.any_none, Bool.false_eq_true, if_false, hdrain, hstate, List.append_assoc]
      · have hpolled : polled ((elapsed, .ready ds) :: answers) = ds ++ polled answers := by simp [polled]
        rw [hpolled, ← List.append_assoc, uevents_append, hseen, List.append_assoc, ← uevents_append, hstream, List.append_assoc]
        simp [poll, hdrain]

end RegeneratedUeventsAux

/-- Between the cold boot and the main loop no uevent is lost, and none is taken twice: what was in the socket at the start, what came in
with the pokes and what came in later is what the cold boot has queued, then what the main loop has been handed, and then what is still in
the socket. The cold boot has poked every directory that can be poked. -/
theorem uevents_queued_or_polled (arrivals : Arrivals) (uevent : Bool) (entries : List SysEntry) (waiting : List Datagram)
    (answers : List (Nat × PollAnswer)) :
    let l := regenerateUevents queueUevent arrivals (some (uevent, entries)) { socket := waiting, state := [] }
    let l' := (poll queueUevent none answers { l with state := [] }).2
    DepthFirst SysDir.label SysDir.next [⟨"/sys/devices", uevent, entries⟩] l.pokes ∧
      uevents (waiting ++ arrived arrivals [] l.pokes ++ polled answers) = l.state ++ l'.state ++ uevents l'.socket := by
  intro l l'
  obtain ⟨order, horder, hwalk⟩ := walked_path queueUevent arrivals "/sys/devices" uevent entries { socket := waiting, state := [] }
  obtain ⟨done, rest, seen, rfl, hpokes, hrest, hstream, hhanded⟩ := hwalk.stream
  obtain ⟨hgo, hqueue⟩ := Handed.queued hhanded
  obtain rfl := hrest hgo
  obtain ⟨handled, hstate, hpolled⟩ := poll_queued answers { l with state := [] }
  have hqueued : l.state = seen := hqueue
  have hdone : l.pokes = done := hpokes
  have hleft : uevents (waiting ++ arrived arrivals [] done) = seen ++ uevents l.socket := hstream
  refine ⟨by simpa [hdone] using horder, ?_⟩
  rw [uevents_append, hdone, hleft, List.append_assoc, ← uevents_append, hpolled, hqueued, hstate, List.nil_append, List.append_assoc]

end Innit
