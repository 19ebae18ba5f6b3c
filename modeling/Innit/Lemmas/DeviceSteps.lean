import Innit.Devices
import Innit.Lib.Ownership

/-!
# What the calls of the device handler leave

Which paths of `/dev` a call may put something at, take something away from, or leave alone; and the requests that a run of uevents
makes of `HandleDevice`, one after the other.
-/

namespace Lib.Prog

variable {Op : Type} {Ans : Op → Type} {ε α β σ : Type}

/-- A sequence that ended without a failure: its first part did, and then its second. -/
theorem run_bind_ok {h : (op : Op) → σ → Ans op × σ} {m : Prog Op Ans ε α} {f : α → Prog Op Ans ε β} {s s' : σ} {b : β}
    (hrun : (m >>= f).run h s = (.ok b, s')) : ∃ a t, m.run h s = (.ok a, t) ∧ (f a).run h t = (.ok b, s') := by
  rw [run_bind] at hrun
  split at hrun
  · next a t heq => exact ⟨a, t, heq, hrun⟩
  · cases hrun

/-- A call is answered by the handler. -/
@[simp] theorem run_lift (h : (op : Op) → σ → Ans op × σ) (op : Op) (s : σ) :
    (lift op : Prog Op Ans ε (Ans op)).run h s = (.ok (h op s).1, (h op s).2) := rfl

/-- A program that is over asks for nothing. -/
@[simp] theorem run_pure (h : (op : Op) → σ → Ans op × σ) (a : α) (s : σ) :
    (pure a : Prog Op Ans ε α).run h s = (.ok a, s) := rfl

end Lib.Prog

namespace Innit

open Lib Lib.Prog

namespace DevWorld

/-- An entry is found among those at other paths than one where it is not. -/
theorem find_others {entries : List (String × DevEntry)} {path q : String} (hq : q ≠ path) :
    (entries.filter (·.1 ≠ path)).find? (·.1 = q) = entries.find? (·.1 = q) := by
  rw [List.find?_filter]
  congr 1
  funext e
  by_cases he : e.1 = q <;> simp [he, hq]

/-- What is at a path after something is put at one. -/
theorem entry_put (w : DevWorld) (path q : String) (e : DevEntry) :
    (w.put path e).entry q = if q = path then some e else w.entry q := by
  unfold DevWorld.put DevWorld.entry
  by_cases hq : q = path
  · simp [hq]
  · rw [if_neg hq, List.find?_cons_of_neg (by simpa using fun h => hq h.symm), find_others hq]

/-- What is at a path after one is cleared. -/
theorem entry_erase (w : DevWorld) (path q : String) : (w.erase path).entry q = if q = path then none else w.entry q := by
  unfold DevWorld.erase DevWorld.entry
  by_cases hq : q = path
  · simp [hq]
  · rw [if_neg hq, find_others hq]

/-- Something is made only where nothing was. -/
theorem entry_make (w : DevWorld) (path q : String) (e : DevEntry) :
    (w.make path e).2.entry q = w.entry q ∨
      (q = path ∧ w.entry q = none ∧ (w.make path e).2.entry q = some e) := by
  unfold DevWorld.make
  split
  · exact .inl rfl
  · next hfree =>
    split
    · exact .inl rfl
    · rw [entry_put]
      split
      · next hq =>
        refine .inr ⟨hq, ?_, rfl⟩
        rw [hq]
        exact Option.not_isSome_iff_eq_none.1 hfree
      · exact .inl rfl
    · exact .inl rfl

/-- What is made where there is nothing, in a directory. -/
theorem make_of_free {w : DevWorld} {path : String} (e : DevEntry) (hfree : w.entry path = none)
    (hdir : w.entry (pathDirname path) = some .dir) : w.make path e = (0, w.put path e) := by
  simp [DevWorld.make, hfree, hdir]

/-- Nothing is made where something is. -/
theorem make_of_taken {w : DevWorld} {path : String} (e : DevEntry) {old : DevEntry} (h : w.entry path = some old) :
    w.make path e = (eexist, w) := by
  simp [DevWorld.make, h]

/-- A tick later. -/
@[simp] theorem entry_tick (w : DevWorld) (n : Nat) (q : String) : ({ w with tick := n } : DevWorld).entry q = w.entry q := rfl

end DevWorld

/-- Whether a call may put something at a path, or take something away from it. -/
def DevCall.touches (l : String) : DevCall → Prop
  | .mkdir p _ => p = l
  | .mknod p _ _ => p = l
  | .symlink _ p => p = l
  | .unlink p => p = l
  | _ => False

/-- Whether a call may put something else than a directory at a path. -/
def DevCall.occupies (d : String) : DevCall → Prop
  | .mknod p _ _ => p = d
  | .symlink _ p => p = d
  | _ => False

namespace DevKernel

variable {K : DevKernel} {w : DevWorld}

/-- A refused call leaves the tree. -/
theorem handle_refused {op : DevCall} {errno : Nat} (h : K.refuse w.tick op = some errno) (q : String) :
    (K.handle op w).2.entry q = w.entry q := by
  unfold handle
  rw [h]
  rfl

/-- A call that is not refused is performed. -/
theorem handle_performed {op : DevCall} (h : K.refuse w.tick op = none) :
    K.handle op w = ((K.perform w op).1, { (K.perform w op).2 with tick := w.tick + 1 }) := by
  unfold handle
  rw [h]

/-- What a call does to a path: nothing; a new entry where there was none; no entry more; or another node where there was one. -/
theorem entry_handle (K : DevKernel) (op : DevCall) (w : DevWorld) (q : String) :
    (K.handle op w).2.entry q = w.entry q ∨
      (op.touches q ∧ w.entry q = none ∧ ((∃ p m, op = .mkdir p m ∧ (K.handle op w).2.entry q = some .dir) ∨ op.occupies q)) ∨
      (op = .unlink q ∧ w.entry q ≠ some .dir ∧ (K.handle op w).2.entry q = none) ∨
      (∃ m u g c d, w.entry q = some (.node m u g c d)) := by
  rcases hrefuse : K.refuse w.tick op with _ | errno
  · rw [handle_performed hrefuse]
    cases op with
    | mkdir p m =>
      rcases w.entry_make p q .dir with h | ⟨rfl, hnone, hnew⟩
      · exact .inl h
      · exact .inr (.inl ⟨rfl, hnone, .inl ⟨q, m, rfl, hnew⟩⟩)
    | mknod p m d =>
      rcases w.entry_make p q (.node m 0 w.egid (w.fscreatecon.getD (K.defaultContext p)) d) with h | ⟨rfl, hnone, _⟩
      · exact .inl h
      · exact .inr (.inl ⟨rfl, hnone, .inr rfl⟩)
    | symlink t p =>
      rcases w.entry_make p q (.link t) with h | ⟨rfl, hnone, _⟩
      · exact .inl h
      · exact .inr (.inl ⟨rfl, hnone, .inr rfl⟩)
    | unlink p =>
      simp only [perform]
      split
      · exact .inl rfl
      · exact .inl rfl
      · next e hdir hentry =>
        simp only [DevWorld.entry_tick, DevWorld.entry_erase]
        split
        · next hq =>
          subst hq
          refine .inr (.inr (.inl ⟨rfl, ?_, rfl⟩))
          rw [hentry]
          intro hsome
          exact hdir (Option.some.inj hsome)
        · exact .inl rfl
    | lsetfilecon p c =>
      simp only [perform]
      split
      · next m u g c' d hentry =>
        simp only [DevWorld.entry_tick, DevWorld.entry_put]
        split
        · next hq => exact .inr (.inr (.inr ⟨m, u, g, c', d, hq ▸ hentry⟩))
        · exact .inl rfl
      · exact .inl rfl
      · exact .inl rfl
    | chownUid p u =>
      simp only [perform]
      split
      · next m u' g c d hentry =>
        simp only [DevWorld.entry_tick, DevWorld.entry_put]
        split
        · next hq => exact .inr (.inr (.inr ⟨m, u', g, c, d, hq ▸ hentry⟩))
        · exact .inl rfl
      · exact .inl rfl
      · exact .inl rfl
    | _ => exact .inl rfl
  · exact .inl (handle_refused hrefuse q)

/-- A directory stays. -/
theorem dir_stays (op : DevCall) {d : String} (h : w.entry d = some .dir) : (K.handle op w).2.entry d = some .dir := by
  rcases entry_handle K op w d with heq | ⟨-, hnone, -⟩ | ⟨-, hdir, -⟩ | ⟨m, u, g, c, dev, hnode⟩
  · rw [heq, h]
  · rw [h] at hnone
    cases hnone
  · exact absurd h hdir
  · rw [h] at hnode
    cases hnode

/-- A path that a call does not touch keeps what is there, unless that is a node. -/
theorem entry_stays {op : DevCall} {l : String} (hop : ¬op.touches l) {x : Option DevEntry} (hx : ∀ m u g c d, x ≠ some (.node m u g c d))
    (h : w.entry l = x) : (K.handle op w).2.entry l = x := by
  rcases entry_handle K op w l with heq | ⟨htouch, -⟩ | ⟨rfl, -⟩ | ⟨m, u, g, c, dev, hnode⟩
  · rw [heq, h]
  · exact absurd htouch hop
  · exact absurd rfl hop
  · exact absurd (h.symm.trans hnode) (hx m u g c dev)

/-- A path that may become a directory may still become one, or is one, after a call that puts nothing else there. -/
theorem dirable_stays {op : DevCall} {d : String} (hop : ¬op.occupies d) (h : w.entry d = none ∨ w.entry d = some .dir) :
    (K.handle op w).2.entry d = none ∨ (K.handle op w).2.entry d = some .dir := by
  rcases h with h | h
  · rcases entry_handle K op w d with heq | ⟨-, -, ⟨p, m, -, hdir⟩ | hocc⟩ | ⟨-, -, hnone⟩ | ⟨m, u, g, c, dev, hnode⟩
    · rw [heq]
      exact .inl h
    · exact .inr hdir
    · exact absurd hocc hop
    · exact .inl hnone
    · rw [h] at hnode
      cases hnode
  · exact .inr (dir_stays op h)

end DevKernel

/-! ### The calls a program makes -/

/-- A condition on calls that those which touch no path meet. -/
def QuietCalls (P : DevCall → Prop) : Prop := ∀ op : DevCall, (∀ q, ¬op.touches q) → P op

section Uses

variable {P : DevCall → Prop} (hP : QuietCalls P)

/-- A call that is allowed. -/
theorem uses_call' (op : DevCall) (h : P op) : (DevProg.call op).Uses P := Uses.bind ((uses_lift P op).2 h) (fun _ => trivial)

/-- A program under a condition. -/
theorem uses_when {c : Prop} [Decidable c] {m : DevProg Unit} (h : c → m.Uses P) : (DevProg.when c m).Uses P := by
  unfold DevProg.when
  split
  · next hc => exact h hc
  · trivial

include hP

/-- A question touches nothing. -/
theorem uses_ask {op : DevCall} (h : ∀ q, ¬op.touches q) : (DevProg.lift op).Uses P := (uses_lift P op).2 (hP op h)

/-- So does a call that changes no path. -/
theorem uses_quiet {op : DevCall} (h : ∀ q, ¬op.touches q) : (DevProg.call op).Uses P := uses_call' _ (hP op h)

/-- A directory is made by one call. -/
theorem uses_makeDir {path : String} {mode : Nat} (h : P (.mkdir path mode)) : (makeDir path mode).Uses P := by
  refine Uses.bind (uses_ask hP fun _ => id) (fun found => Uses.bind ?_ (fun _ => Uses.bind ((uses_lift P _).2 h) (fun rc =>
    Uses.bind ?_ (fun _ => trivial))))
  · exact uses_when (fun _ => uses_quiet hP fun _ => id)
  · exact uses_when (fun _ => uses_quiet hP fun _ => id)

/-- Directories are made one after the other. -/
theorem uses_mkdirAll {mode : Nat} {dirs : List String} (h : ∀ d ∈ dirs, P (.mkdir d mode)) : (mkdirAll mode dirs).Uses P := by
  induction dirs with
  | nil => trivial
  | cons d dirs ih =>
    refine Uses.bind (uses_ask hP fun _ => id) (fun found => ?_)
    have hrest := ih (fun d hd => h d (List.mem_cons_of_mem _ hd))
    split
    · exact hrest
    · refine Uses.bind (uses_makeDir hP (h d List.mem_cons_self)) (fun errno => ?_)
      split
      · trivial
      · exact hrest

/-- `mkdir_recursive` makes the path and the directories above it. -/
theorem uses_mkdirRecursive {path : String} {mode : Nat}
    (h : ∀ d ∈ (upperDirs path.toList).map String.ofList ++ [path], P (.mkdir d mode)) : (mkdirRecursive path mode).Uses P := by
  refine Uses.bind (uses_mkdirAll hP fun d hd => h d (List.mem_append_left _ hd)) (fun ok => ?_)
  split
  · exact Uses.bind (uses_makeDir hP (h path (by simp))) (fun errno => trivial)
  · trivial

/-- A node is made by one call, among others that touch nothing. -/
theorem uses_makeNode {path secontext : String} {mode gid : Nat} {dev : Int × Int} (h : P (.mknod path mode dev)) :
    (makeNode path secontext mode gid dev).Uses P := by
  refine Uses.bind (uses_ask hP fun _ => id) (fun refused => ?_)
  split
  · trivial
  · refine Uses.bind ((uses_lift P _).2 h) (fun errno => uses_when (fun _ => Uses.bind (uses_ask hP fun _ => id) (fun fcon => ?_)))
    split
    · trivial
    · exact uses_when (fun _ => uses_quiet hP fun _ => id)

/-- Giving the credentials back touches nothing. -/
theorem uses_restoreCredentials {secontext : String} : (restoreCredentials secontext).Uses P := by
  refine Uses.bind (uses_ask hP fun _ => id) (fun refused => ?_)
  split
  · trivial
  · exact uses_when (fun _ => uses_quiet hP fun _ => id)

/-- `MakeDevice` makes the node. -/
theorem uses_makeDevice {H : DeviceHandler} {path : String} {block : Bool} {major minor : Int} {links : List String}
    (h : ∀ mode, P (.mknod path mode (major, minor))) : (H.makeDevice path block major minor links).Uses P := by
  refine Uses.bind (uses_ask hP fun _ => id) (fun found => ?_)
  split
  · trivial
  · refine Uses.bind (uses_when fun _ => uses_quiet hP fun _ => id) (fun _ => Uses.bind (uses_makeNode hP (h _)) (fun _ => ?_))
    exact Uses.bind (uses_quiet hP fun _ => id) (fun _ => uses_restoreCredentials hP)

/-- Links are removed, and only these. -/
theorem uses_removeLinks {devpath : String} {links : List String} (h : ∀ l ∈ links, P (.unlink l)) :
    (removeLinks devpath links).Uses P := by
  induction links with
  | nil => trivial
  | cons link links ih =>
    refine Uses.bind (uses_ask hP fun _ => id) (fun linkPath => Uses.bind ?_ (fun _ => ih fun l hl => h l (List.mem_cons_of_mem _ hl)))
    exact uses_when (fun _ => uses_call' _ (h link List.mem_cons_self))

/-- The permissions of `/sys` touch nothing. -/
theorem uses_fixupEach {H : DeviceHandler} {S : Sysfs} {path subsystem : String} (lines : List SysfsPermissions) :
    (H.fixupEach S path subsystem lines).Uses P := by
  induction lines with
  | nil => trivial
  | cons s lines ih =>
    refine Uses.bind (uses_when fun _ => uses_when fun _ => ?_) (fun _ => ih)
    exact Uses.bind (uses_quiet hP fun _ => id) (fun _ => uses_quiet hP fun _ => id)

/-- The calls on `/sys`. -/
theorem uses_fixupSysPermissions {H : DeviceHandler} {S : Sysfs} {upath subsystem : String} :
    (H.fixupSysPermissions S upath subsystem).Uses P :=
  Uses.bind (uses_fixupEach hP _) (fun _ => uses_when fun _ => uses_quiet hP fun _ => id)

end Uses

/-! ### Requests -/

/-- What `HandleDevice` is asked for. -/
structure DeviceRequest where
  action : String
  devpath : String
  block : Bool
  major : Int
  minor : Int
  links : List String
deriving DecidableEq, Repr

namespace DeviceHandler

variable (H : DeviceHandler)

/-- The requests of a uevent. -/
def requestsOf (S : Sysfs) : Nat → Uevent → List DeviceRequest
  | 0, _ => []
  | depth + 1, uevent =>
    if uevent.major < 0 ∨ uevent.minor < 0 then []
    else match H.devpathOf S uevent with
      | none => []
      | some (devpath, block, links) =>
        ⟨uevent.action, devpath, block, uevent.major, uevent.minor, links⟩ ::
          match dupAshmemUevent S uevent with
          | none => []
          | some dup => requestsOf S depth dup

/-- The requests of a run. -/
def requests (depth : Nat) (us : List (Sysfs × Uevent)) : List DeviceRequest := us.flatMap (fun e => H.requestsOf e.1 depth e.2)

/-- What a request does: the directory of the node, and `HandleDevice`. -/
def handleRequest (r : DeviceRequest) : DevProg Unit := do
  let _ ← mkdirRecursive (pathDirname r.devpath) 0o755
  H.handleDevice r.action r.devpath r.block r.major r.minor r.links

variable {H} {K : DevKernel} {I : List DeviceRequest → DevWorld → Prop}

/-- A uevent, request by request: what calls that touch nothing keep, and each request leads on with, holds of all its requests. -/
theorem handleUevent_requests (hquiet : ∀ done op w, (∀ q, ¬DevCall.touches q op) → I done w → I done (K.handle op w).2)
    (S : Sysfs) (depth : Nat) (u : Uevent) (done : List DeviceRequest) {w w' : DevWorld}
    (hreq : ∀ done r w w', r ∈ H.requestsOf S depth u → (H.handleRequest r).run K.handle w = (.ok (), w') → I done w → I (done ++ [r]) w')
    (hrun : (H.handleUevent S depth u).run K.handle w = (.ok (), w')) (hI : I done w) : I (done ++ H.requestsOf S depth u) w' := by
  induction depth generalizing u done w with
  | zero => cases hrun
  | succ depth ih =>
    unfold handleUevent at hrun
    obtain ⟨_, w₁, hfix, hrun⟩ := run_bind_ok hrun
    have hI₁ : I done w₁ := by
      have huses : (DevProg.when (u.action = "add" ∨ u.action = "change" ∨ u.action = "bind" ∨ u.action = "online")
          (H.fixupSysPermissions S u.path u.subsystem)).Uses (fun op => ∀ q, ¬op.touches q) :=
        uses_when fun _ => uses_fixupSysPermissions (fun op h => h)
      have hkeep := run_invariant_on K.handle _ (I done) (fun op w hop => hquiet done op w hop) _ huses w hI
      rw [hfix] at hkeep
      exact hkeep
    unfold requestsOf at hreq ⊢
    split at hrun
    · next hneg =>
      rw [if_pos hneg]
      obtain ⟨-, rfl⟩ := Prod.mk.inj hrun
      simpa using hI₁
    · next hneg =>
      rw [if_neg hneg] at hreq ⊢
      rcases hdevpath : H.devpathOf S u with _ | ⟨devpath, block, links⟩
      · simp only [hdevpath] at hrun
        obtain ⟨-, rfl⟩ := Prod.mk.inj hrun
        simpa using hI₁
      · simp only [hdevpath] at hrun hreq
        obtain ⟨ok, w₂, hmk, hrun⟩ := run_bind_ok hrun
        obtain ⟨_, w₃, hdev, hrun⟩ := run_bind_ok hrun
        have hone : (H.handleRequest ⟨u.action, devpath, block, u.major, u.minor, links⟩).run K.handle w₁ = (.ok (), w₃) := by
          unfold handleRequest
          rw [run_bind, hmk]
          exact hdev
        have hI₃ := hreq done _ w₁ w₃ List.mem_cons_self hone hI₁
        rw [List.append_cons]
        cases hdup : dupAshmemUevent S u with
        | none =>
          rw [hdup] at hrun
          obtain ⟨-, rfl⟩ := Prod.mk.inj hrun
          simpa using hI₃
        | some dup =>
          rw [hdup] at hrun hreq
          exact ih dup _ (fun done r w w' hr => hreq done r w w' (List.mem_cons_of_mem _ hr)) hrun hI₃

/-- A run, request by request. -/
theorem handleAll_requests (hquiet : ∀ done op w, (∀ q, ¬DevCall.touches q op) → I done w → I done (K.handle op w).2)
    (depth : Nat) (us : List (Sysfs × Uevent)) {w w' : DevWorld}
    (hreq : ∀ done r w w', r ∈ H.requests depth us → (H.handleRequest r).run K.handle w = (.ok (), w') → I done w → I (done ++ [r]) w')
    (hrun : (H.handleAll depth us).run K.handle w = (.ok (), w')) (hI : I [] w) : I (H.requests depth us) w' := by
  suffices h : ∀ done w, I done w → (H.handleAll depth us).run K.handle w = (.ok (), w') → I (done ++ H.requests depth us) w' by
    simpa using h [] w hI hrun
  clear hrun hI w
  induction us with
  | nil =>
    intro done w hI hrun
    obtain ⟨-, rfl⟩ := Prod.mk.inj hrun
    simpa [requests] using hI
  | cons e us ih =>
    intro done w hI hrun
    obtain ⟨_, w₁, hone, hrun⟩ := run_bind_ok hrun
    have hmem : ∀ r, r ∈ H.requestsOf e.1 depth e.2 ∨ r ∈ H.requests depth us → r ∈ H.requests depth (e :: us) := by
      intro r hr
      unfold requests
      rw [List.flatMap_cons, List.mem_append]
      exact hr
    have hI₁ := handleUevent_requests hquiet e.1 depth e.2 done
      (fun done r w w' hr => hreq done r w w' (hmem r (.inl hr))) hone hI
    have hall := ih (fun done r w w' hr => hreq done r w w' (hmem r (.inr hr))) _ w₁ hI₁ hrun
    rw [List.append_assoc] at hall
    exact hall

end DeviceHandler

end Innit
