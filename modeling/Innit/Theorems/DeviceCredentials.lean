import Innit.Lemmas.DeviceSteps
import Innit.Lib.Contract

/-!
# The credentials that devices are made with

While a node is made the process has the group of the node and the context of its label; only a kernel that refuses to set the context
lets it appear without. Nothing else under `/dev` or in `/sys` is done with them, whichever calls the kernel refuses: the group is given
back or ueventd aborts, and the context is given back as long as clearing it is not refused.
-/

namespace Innit

open Lib Lib.Prog DevKernel

/-- A kernel that does not refuse to clear the context that files are created with. -/
def DevKernel.ClearsContext (K : DevKernel) : Prop := ∀ tick, K.refuse tick (.setfscreatecon none) = none

/-- The credentials of a process that makes nothing. -/
def DevWorld.Clean (w : DevWorld) : Prop := w.egid = 0 ∧ w.fscreatecon = none

/-- Whether a call sets the credentials of the process. -/
def DevCall.setsCredentials : DevCall → Bool
  | .setegid _ => true
  | .setfscreatecon _ => true
  | _ => false

/-- The process creates files under a label, an empty one being none, unless the kernel refused to set it so many calls ago. -/
def DevWorld.CreatesUnder (K : DevKernel) (label : String) (ago : Nat) (w : DevWorld) : Prop :=
  w.fscreatecon = (if label = "" then none else some label) ∨
    (w.fscreatecon = none ∧ (K.refuse (w.tick - ago) (.setfscreatecon (some label))).isSome = true)

/-- The mode that the node of a request is made with. -/
def DeviceHandler.modeFor (H : DeviceHandler) (r : DeviceRequest) : Nat :=
  (H.getDevicePermissions r.devpath r.links).1 ||| if r.block then sIfblk else sIfchr

/-- What each call is made with. A node is made for a request to add it, with the mode and the group of the rule for it and under its
label, which was asked to be set two calls before; its owner is the rule's, and what stands at its path is given its label. A directory is
made under its own label, if it has one and the kernel tells it. All else has clean credentials. -/
def ProperCall (H : DeviceHandler) (K : DevKernel) (rs : List DeviceRequest) : DevCall → DevWorld → Prop
  | .mknod path mode dev, w => ∃ r ∈ rs, r.action = "add" ∧ path = r.devpath ∧ dev = (r.major, r.minor) ∧ mode = H.modeFor r ∧
      w.egid = (H.getDevicePermissions r.devpath r.links).2.2 ∧
      ∃ label, K.selabel path r.links mode = some label ∧ w.CreatesUnder K label 2
  | .chownUid path uid, _ => ∃ r ∈ rs, r.action = "add" ∧ path = r.devpath ∧ uid = (H.getDevicePermissions r.devpath r.links).2.1
  | .lsetfilecon path con, _ => ∃ r ∈ rs, r.action = "add" ∧ path = r.devpath ∧ K.selabel path r.links (H.modeFor r) = some con
  | .mkdir path mode, w => w.egid = 0 ∧
      ((∃ label, K.selabel path [] mode = some label ∧ w.CreatesUnder K label 1) ∨
        (w.fscreatecon = none ∧
          (K.selabel path [] mode = none ∨ (K.refuse (w.tick - 1) (.selabelLookup path mode)).isSome = true)))
  | .setegid _, _ => True
  | .setfscreatecon _, _ => True
  | .selabelLookup _ _, _ => True
  | .selabelLookupBestMatch _ _ _, _ => True
  | .lgetfilecon _, _ => True
  | _, w => w.Clean

namespace DeviceCredentialsAux

variable {H : DeviceHandler} {K : DevKernel} {rs : List DeviceRequest} {w : DevWorld}

/-- A program that makes proper calls from clean credentials, and leaves clean ones. -/
structure Proper (H : DeviceHandler) (K : DevKernel) (rs : List DeviceRequest) {α : Type} (m : DevProg α) : Prop where
  safe : ∀ w : DevWorld, w.Clean → Safe K.handle (ProperCall H K rs) (fun _ w => w.Clean) m w

theorem Proper.bind {α β : Type} {m : DevProg α} {f : α → DevProg β} (hm : Proper H K rs m) (hf : ∀ a, Proper H K rs (f a)) :
    Proper H K rs (m >>= f) := ⟨fun w hw => safe_bind ((hm.safe w hw).post fun a w hw => (hf a).safe w hw)⟩

theorem proper_pure {α : Type} (a : α) : Proper H K rs (pure a) := ⟨fun _ hw => hw⟩

theorem Proper.mono {rs' : List DeviceRequest} (h : ∀ r ∈ rs, r ∈ rs') {α : Type} {m : DevProg α} (hm : Proper H K rs m) :
    Proper H K rs' m := by
  constructor
  intro w hw
  refine (hm.safe w hw).mono (fun op w hop => ?_) (fun _ _ => id)
  cases op with
  | mknod path mode dev =>
    obtain ⟨r, hr, hrest⟩ := hop
    exact ⟨r, h r hr, hrest⟩
  | chownUid path uid =>
    obtain ⟨r, hr, hrest⟩ := hop
    exact ⟨r, h r hr, hrest⟩
  | lsetfilecon path con =>
    obtain ⟨r, hr, hrest⟩ := hop
    exact ⟨r, h r hr, hrest⟩
  | _ => exact hop

/-- A call that is not about credentials leaves them. -/
theorem credentials_handle (op : DevCall) (w : DevWorld) (hop : op.setsCredentials = false) :
    (K.handle op w).2.egid = w.egid ∧ (K.handle op w).2.fscreatecon = w.fscreatecon := by
  have hmake : ∀ path e, (w.make path e).2.egid = w.egid ∧ (w.make path e).2.fscreatecon = w.fscreatecon := by
    intro path e
    unfold DevWorld.make
    split
    · exact ⟨rfl, rfl⟩
    · split <;> exact ⟨rfl, rfl⟩
  rcases hrefuse : K.refuse w.tick op with _ | errno
  · rw [handle_performed hrefuse]
    cases op with
    | setegid g => cases hop
    | setfscreatecon c => cases hop
    | mkdir path mode => exact hmake _ _
    | mknod path mode dev => exact hmake _ _
    | symlink target path => exact hmake _ _
    | lsetfilecon path con => simp only [perform]; split <;> exact ⟨rfl, rfl⟩
    | chownUid path uid => simp only [perform]; split <;> exact ⟨rfl, rfl⟩
    | unlink path => simp only [perform]; split <;> exact ⟨rfl, rfl⟩
    | _ => exact ⟨rfl, rfl⟩
  · unfold handle
    rw [hrefuse]
    exact ⟨rfl, rfl⟩

/-- A call that is made with clean credentials, and is not about them. -/
theorem proper_ask (op : DevCall) (hop : op.setsCredentials = false) (hw : ∀ w : DevWorld, w.Clean → ProperCall H K rs op w) :
    Proper H K rs (DevProg.lift op) := by
  constructor
  intro w hclean
  obtain ⟨hg, hc⟩ := credentials_handle (K := K) op w hop
  exact ⟨hw w hclean, hg.trans hclean.1, hc.trans hclean.2⟩

theorem proper_call (op : DevCall) (hop : op.setsCredentials = false) (hw : ∀ w : DevWorld, w.Clean → ProperCall H K rs op w) :
    Proper H K rs (DevProg.call op) := (proper_ask op hop hw).bind fun _ => proper_pure ()

theorem proper_when {c : Prop} [Decidable c] {m : DevProg Unit} (h : c → Proper H K rs m) : Proper H K rs (DevProg.when c m) := by
  unfold DevProg.when
  split
  · next hc => exact h hc
  · exact proper_pure ()

/-- The context is cleared. -/
theorem clear_context (hK : K.ClearsContext) (w : DevWorld) :
    (K.handle (.setfscreatecon none) w).2.egid = w.egid ∧ (K.handle (.setfscreatecon none) w).2.fscreatecon = none := by
  rw [handle_performed (hK w.tick)]
  exact ⟨rfl, rfl⟩

/-- Every call takes a tick. -/
theorem tick_handle (op : DevCall) (w : DevWorld) : (K.handle op w).2.tick = w.tick + 1 := by
  unfold handle
  split <;> rfl

/-- A call later. -/
theorem createsUnder_later {label : String} {ago : Nat} {v : DevWorld} (h : w.CreatesUnder K label ago)
    (hcon : v.fscreatecon = w.fscreatecon) (htick : v.tick = w.tick + 1) : v.CreatesUnder K label (ago + 1) := by
  unfold DevWorld.CreatesUnder at h ⊢
  rw [hcon, htick, Nat.add_sub_add_right]
  exact h

/-- The context is set, or stays as it was. -/
theorem set_context (c : String) (hc : c ≠ "") (hw : w.fscreatecon = none) :
    (K.handle (.setfscreatecon (some c)) w).2.egid = w.egid ∧
      (K.handle (.setfscreatecon (some c)) w).2.CreatesUnder K c 1 := by
  rcases hrefuse : K.refuse w.tick (.setfscreatecon (some c)) with _ | errno
  · rw [handle_performed hrefuse]
    exact ⟨rfl, .inl (if_neg hc).symm⟩
  · have hv : (K.handle (.setfscreatecon (some c)) w).2 = { w with tick := w.tick + 1 } := by
      unfold handle
      rw [hrefuse]
    rw [hv]
    refine ⟨rfl, .inr ⟨hw, ?_⟩⟩
    change (K.refuse w.tick (.setfscreatecon (some c))).isSome = true
    rw [hrefuse]
    rfl

/-- What setting a context leaves to the calls that follow. -/
theorem safe_set {Q : Unit → DevWorld → Prop} {secontext : String} (hw : w.Clean)
    (hQ : ∀ v : DevWorld, v.egid = 0 → v.CreatesUnder K secontext 1 → (secontext = "" → v = w) → Q () v) :
    Safe K.handle (ProperCall H K rs) Q (DevProg.when (secontext ≠ "") (DevProg.call (.setfscreatecon (some secontext)))) w := by
  unfold DevProg.when
  split
  · next hne =>
    obtain ⟨hgid, hcon⟩ := set_context (K := K) secontext hne hw.2
    exact ⟨trivial, hQ _ (hgid.trans hw.1) hcon fun hempty => absurd hempty hne⟩
  · next hempty =>
    exact hQ w hw.1 (.inl (hw.2.trans (if_pos (not_not.1 hempty)).symm)) fun _ => rfl

/-- What is left once the context is cleared, if it was set. -/
theorem safe_clear (hK : K.ClearsContext) {secontext : String} (hgid : w.egid = 0) (hcon : secontext = "" → w.fscreatecon = none) :
    Safe K.handle (ProperCall H K rs) (fun _ w => w.Clean)
      (DevProg.when (secontext ≠ "") (DevProg.call (.setfscreatecon none))) w := by
  unfold DevProg.when
  split
  · obtain ⟨hgid', hcon'⟩ := clear_context hK w
    exact ⟨trivial, hgid'.trans hgid, hcon'⟩
  · next hempty => exact ⟨hgid, hcon (not_not.1 hempty)⟩

/-- A directory is made under its label, where one is told. -/
theorem label_mkdir {path : String} {mode : Nat} {v : DevWorld} (hw : w.fscreatecon = none)
    (hcreates : v.CreatesUnder K (((K.handle (.selabelLookup path mode) w).1 : Option String).getD "") 1)
    (hsame : ((K.handle (.selabelLookup path mode) w).1 : Option String).getD "" = "" → v = (K.handle (.selabelLookup path mode) w).2) :
    (∃ label, K.selabel path [] mode = some label ∧ v.CreatesUnder K label 1) ∨
      (v.fscreatecon = none ∧
        (K.selabel path [] mode = none ∨ (K.refuse (v.tick - 1) (.selabelLookup path mode)).isSome = true)) := by
  rcases hrefuse : K.refuse w.tick (.selabelLookup path mode) with _ | errno
  · rw [handle_performed hrefuse] at hcreates hsame
    simp only [perform] at hcreates hsame
    cases hlook : K.selabel path [] mode with
    | some label =>
      rw [hlook] at hcreates
      exact .inl ⟨label, rfl, hcreates⟩
    | none =>
      rw [hlook] at hsame
      rw [hsame rfl]
      exact .inr ⟨hw, .inl rfl⟩
  · have hnone : ((K.handle (.selabelLookup path mode) w).1 : Option String) = none := by
      unfold handle
      rw [hrefuse]
      rfl
    rw [hsame (by rw [hnone]; rfl), tick_handle]
    refine .inr ⟨?_, .inr ?_⟩
    · exact (credentials_handle (.selabelLookup path mode) w rfl).2.trans hw
    · rw [Nat.add_sub_cancel, hrefuse]
      rfl

theorem proper_makeDir (hK : K.ClearsContext) (path : String) (mode : Nat) : Proper H K rs (makeDir path mode) := by
  constructor
  intro w hw
  obtain ⟨hg, hc⟩ := credentials_handle (K := K) (.selabelLookup path mode) w rfl
  refine safe_bind (safe_lift trivial (safe_bind (safe_set ⟨hg.trans hw.1, hc.trans hw.2⟩ fun v hvg hvc hsame => ?_)))
  have hlabel := label_mkdir hw.2 hvc hsame
  obtain ⟨hg', hc'⟩ := credentials_handle (K := K) (.mkdir path mode) v rfl
  refine safe_bind (safe_lift ⟨hvg, hlabel⟩ (safe_bind ((safe_clear hK (hg'.trans hvg) fun hempty => ?_).post fun _ v hv => hv)))
  rw [hc', hsame hempty]
  exact hc.trans hw.2

theorem proper_mkdirAll (hK : K.ClearsContext) (mode : Nat) (dirs : List String) : Proper H K rs (mkdirAll mode dirs) := by
  induction dirs with
  | nil => exact proper_pure true
  | cons d dirs ih =>
    refine (proper_ask _ rfl fun _ => id).bind fun found => ?_
    split
    · exact ih
    · refine (proper_makeDir hK d mode).bind fun errno => ?_
      split
      · exact proper_pure false
      · exact ih

theorem proper_mkdirRecursive (hK : K.ClearsContext) (path : String) (mode : Nat) : Proper H K rs (mkdirRecursive path mode) := by
  refine (proper_mkdirAll hK mode _).bind fun ok => ?_
  split
  · exact (proper_makeDir hK path mode).bind fun errno => proper_pure _
  · exact proper_pure false

/-- A call that is not about credentials, inside of `MakeDevice`. -/
theorem safe_label (op : DevCall) {Q : op.Ans → DevWorld → Prop} (hop : op.setsCredentials = false) (hw : ProperCall H K rs op w)
    (hQ : ∀ a, ∀ v : DevWorld, v.fscreatecon = w.fscreatecon → Q a v) :
    Safe K.handle (ProperCall H K rs) Q (DevProg.lift op) w := safe_lift hw (hQ _ _ (credentials_handle op w hop).2)

/-- The node is made with its rule's group and under its label, if at all. -/
theorem safe_makeNode {r : DeviceRequest} (hr : r ∈ rs) (hadd : r.action = "add") {secontext : String}
    (hlabel : K.selabel r.devpath r.links (H.modeFor r) = some secontext) (hcon : w.CreatesUnder K secontext 1) :
    Safe K.handle (ProperCall H K rs) (fun _ v => v.fscreatecon = w.fscreatecon)
      (makeNode r.devpath secontext (H.modeFor r) (H.getDevicePermissions r.devpath r.links).2.2 (r.major, r.minor)) w := by
  refine safe_bind (safe_lift trivial ?_)
  rcases hrefuse : K.refuse w.tick (.setegid (H.getDevicePermissions r.devpath r.links).2.2) with _ | errno
  · rw [handle_performed hrefuse]
    rw [if_neg (by simp [perform])]
    refine safe_bind (safe_lift ⟨r, hr, hadd, rfl, rfl, rfl, rfl, secontext, hlabel, createsUnder_later hcon rfl rfl⟩ ?_)
    obtain ⟨-, hc⟩ := credentials_handle (K := K) (.mknod r.devpath (H.modeFor r) (r.major, r.minor))
      { w with egid := (H.getDevicePermissions r.devpath r.links).2.2, tick := w.tick + 1 }
      rfl
    unfold DevProg.when
    split
    · refine safe_bind (safe_label (.lgetfilecon r.devpath) rfl trivial fun fcon v hv => ?_)
      split
      · exact safe_pure (hv.trans hc)
      · split
        · exact safe_bind (safe_label (.lsetfilecon r.devpath secontext) rfl ⟨r, hr, hadd, rfl, hlabel⟩ fun _ u hu =>
            safe_pure (hu.trans (hv.trans hc)))
        · exact safe_pure (hv.trans hc)
    · exact safe_pure hc
  · unfold handle
    rw [hrefuse]
    dsimp only
    rw [if_pos]
    · exact safe_pure rfl
    · simp only [refusal]
      omega

/-- The group is given back, or ueventd aborts. -/
theorem safe_restore (hK : K.ClearsContext) {secontext : String} (hcon : secontext = "" → w.fscreatecon = none) :
    Safe K.handle (ProperCall H K rs) (fun _ w => w.Clean) (restoreCredentials secontext) w := by
  refine safe_bind (safe_lift trivial ?_)
  split
  · exact safe_throw
  · next hdone =>
    have hset : K.refuse w.tick (.setegid 0) = none := by
      rcases hrefuse : K.refuse w.tick (.setegid 0) with _ | errno
      · rfl
      · unfold handle at hdone
        rw [hrefuse] at hdone
        simp only [refusal] at hdone
        omega
    rw [handle_performed hset]
    exact safe_clear hK rfl hcon

theorem proper_makeDevice (hK : K.ClearsContext) {r : DeviceRequest} (hr : r ∈ rs) (hadd : r.action = "add") :
    Proper H K rs (H.makeDevice r.devpath r.block r.major r.minor r.links) := by
  constructor
  intro w hw
  obtain ⟨hg, hc⟩ := credentials_handle (K := K) (.selabelLookupBestMatch r.devpath r.links (H.modeFor r)) w rfl
  refine safe_bind (safe_lift trivial ?_)
  split
  · exact safe_pure ⟨hg.trans hw.1, hc.trans hw.2⟩
  · next secontext hfound =>
    have hlabel : K.selabel r.devpath r.links (H.modeFor r) = some secontext := by
      rcases hrefuse : K.refuse w.tick (.selabelLookupBestMatch r.devpath r.links (H.modeFor r)) with _ | errno
      · exact (congrArg Prod.fst (handle_performed hrefuse)).symm.trans hfound
      · have hnone : (K.handle (.selabelLookupBestMatch r.devpath r.links (H.modeFor r)) w).1 = (none : Option String) := by
          unfold handle
          rw [hrefuse]
          rfl
        cases hnone.symm.trans hfound
    refine safe_bind (safe_set ⟨hg.trans hw.1, hc.trans hw.2⟩ fun v hvg hvc hsame => ?_)
    refine safe_bind ((safe_makeNode hr hadd hlabel hvc).post fun _ u hu => ?_)
    refine safe_bind (safe_bind (safe_label (.chownUid r.devpath (H.getDevicePermissions r.devpath r.links).2.1) rfl
      ⟨r, hr, hadd, rfl, rfl⟩ fun _ x hx => safe_pure ?_))
    refine safe_restore hK fun hempty => ?_
    rw [hx, hu, hsame hempty]
    exact hc.trans hw.2

theorem proper_removeLinks (devpath : String) (links : List String) : Proper H K rs (removeLinks devpath links) := by
  induction links with
  | nil => exact proper_pure ()
  | cons link links ih =>
    refine (proper_ask _ rfl fun _ => id).bind fun linkPath => ?_
    exact (proper_when fun _ => proper_call _ rfl fun _ => id).bind fun _ => ih

theorem proper_removeLinksIn (devpath : String) (dirs : List String) : Proper H K rs (removeLinksIn devpath dirs) := by
  induction dirs with
  | nil => exact proper_pure ()
  | cons dir dirs ih =>
    refine (proper_ask _ rfl fun _ => id).bind fun found => ?_
    refine (proper_when fun _ => ?_).bind fun _ => ih
    refine (proper_ask _ rfl fun _ => id).bind fun dh => ?_
    split
    · exact proper_pure ()
    · exact proper_removeLinks _ _

theorem proper_makeLinks (hK : K.ClearsContext) (devpath : String) (links : List String) : Proper H K rs (makeLinks devpath links) := by
  induction links with
  | nil => exact proper_pure ()
  | cons link links ih =>
    refine (proper_mkdirRecursive hK _ _).bind fun _ => ?_
    exact (proper_call (.symlink devpath link) rfl fun _ => id).bind fun _ => ih

theorem proper_fixupSysPermissions (S : Sysfs) (upath subsystem : String) : Proper H K rs (H.fixupSysPermissions S upath subsystem) := by
  have hall : ∀ lines, Proper H K rs (H.fixupEach S ("/sys" ++ upath) subsystem lines) := by
    intro lines
    induction lines with
    | nil => exact proper_pure ()
    | cons s lines ih =>
      refine (proper_when fun _ => proper_when fun _ => ?_).bind fun _ => ih
      exact (proper_call _ rfl fun _ => id).bind fun _ => proper_call _ rfl fun _ => id
  exact (hall _).bind fun _ => proper_when fun _ => proper_call _ rfl fun _ => id

/-- One request. -/
theorem proper_handleDevice (hK : K.ClearsContext) {r : DeviceRequest} (hr : r ∈ rs) :
    Proper H K rs (H.handleDevice r.action r.devpath r.block r.major r.minor r.links) := by
  unfold DeviceHandler.handleDevice removeDeviceMapperLinks
  refine (proper_when fun hadd => proper_makeDevice hK hr hadd).bind fun _ => ?_
  refine (proper_when fun _ => proper_makeLinks hK _ _).bind fun _ => proper_when fun _ => ?_
  refine (proper_when fun _ => proper_removeLinksIn r.devpath mapperDirs).bind fun _ => (proper_removeLinks _ _).bind fun _ => ?_
  exact proper_call (.unlink r.devpath) rfl fun _ => id

theorem proper_handleUevent (hK : K.ClearsContext) (S : Sysfs) (depth : Nat) (u : Uevent) :
    Proper H K (H.requestsOf S depth u) (H.handleUevent S depth u) := by
  induction depth generalizing u with
  | zero => exact ⟨fun _ _ => trivial⟩
  | succ depth ih =>
    unfold DeviceHandler.requestsOf DeviceHandler.handleUevent
    refine (proper_when fun _ => proper_fixupSysPermissions S _ _).bind fun _ => ?_
    split
    · exact proper_pure ()
    · rcases H.devpathOf S u with _ | ⟨devpath, block, links⟩
      · exact proper_pure ()
      · refine (proper_mkdirRecursive hK _ _).bind fun _ => ?_
        refine (proper_handleDevice hK (r := ⟨u.action, devpath, block, u.major, u.minor, links⟩) List.mem_cons_self).bind fun _ => ?_
        cases hdup : dupAshmemUevent S u with
        | none => exact proper_pure ()
        | some dup => exact (ih dup).mono fun r => List.mem_cons_of_mem _

end DeviceCredentialsAux

open DeviceCredentialsAux

/-- In every run of uevents, whichever calls are refused but those that clear the context, each call is made with the credentials that
are proper for it: the mode, the group and the label of a node are right when it appears, unless the kernel has just refused to set the
label, and no other file is made, linked, removed or relabelled with them. When the run ends without an abort, the credentials are clean
again. -/
theorem devices_made_with_proper_credentials {K : DevKernel} (hK : K.ClearsContext) (H : DeviceHandler) (depth : Nat)
    (us : List (Sysfs × Uevent)) {w : DevWorld} (hw : w.Clean) :
    Safe K.handle (ProperCall H K (H.requests depth us)) (fun _ w => w.Clean) (H.handleAll depth us) w := by
  suffices h : Proper H K (H.requests depth us) (H.handleAll depth us) from h.safe w hw
  induction us with
  | nil => exact proper_pure ()
  | cons e us ih =>
    unfold DeviceHandler.requests
    rw [List.flatMap_cons]
    refine ((proper_handleUevent hK e.1 depth e.2).mono fun r => List.mem_append_left _).bind fun _ => ?_
    exact ih.mono fun r => List.mem_append_right _

/-- A kernel that refuses every node, and to set the group of a node. -/
def refusesNodes : DevKernel where
  refuse := fun _ op => match op with
    | .mknod _ _ _ => some 28
    | .setegid gid => if gid = 0 then none else some 1
    | _ => none
  selabel := fun _ _ _ => some "u:object_r:device:s0"

/-- The uevent of `/dev/null`. -/
def nullRun : List (Sysfs × Uevent) :=
  [({}, { action := "add", path := "/devices/virtual/mem/null", subsystem := "mem", major := 1, minor := 3 })]

theorem devices_made_with_proper_credentials_refused :
    Safe refusesNodes.handle (ProperCall {} refusesNodes (DeviceHandler.requests {} 2 nullRun)) (fun _ w => w.Clean)
      (DeviceHandler.handleAll {} 2 nullRun) {} :=
  devices_made_with_proper_credentials (fun _ => rfl) {} 2 nullRun ⟨rfl, rfl⟩

end Innit
