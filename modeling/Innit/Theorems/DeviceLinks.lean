import Innit.Lemmas.DeviceSteps

/-!
# Links to devices

The links under `/dev` are a registry: a link is free until a device that lists it is added, it then points to that device whatever
other devices list it, and it is free again when that device is removed with the link in its list, or as a device-mapper device.
-/

namespace Innit

open Lib Lib.Prog DevKernel

/-- The directory a path is in and those above it, the uppermost first. -/
def dirsAbove (path : String) : List String :=
  (upperDirs (pathDirname path).toList).map String.ofList ++ [pathDirname path]

/-- A path of names. -/
def NamedPath (path : String) : Prop :=
  ∃ names name, (∀ n ∈ names, IsName n) ∧ IsName name ∧ path = String.ofList (pathOf names ++ '/' :: name)

/-- A kernel that refuses nothing for a reason outside of the tree. -/
def DevKernel.Willing (K : DevKernel) : Prop := ∀ tick op, K.refuse tick op = none

namespace DeviceRequest

/-- The owner that a request claims a link for. -/
def claim (r : DeviceRequest) (l : String) : Option String :=
  if (r.action = "add" ∨ (r.action = "change" ∧ startsWith r.devpath "/dev/block/dm-")) ∧ l ∈ r.links then some r.devpath else none

/-- Whether a request releases a link of an owner. -/
def release (r : DeviceRequest) (l d : String) : Bool :=
  r.action = "remove" && r.devpath = d &&
    (r.links.contains l || (startsWith d "/dev/block/dm-" && mapperDirs.any (fun dir => (DevWorld.nameIn dir l).isSome)))

/-- The directories that a request makes. -/
def dirs (r : DeviceRequest) : List String := dirsAbove r.devpath ++ r.links.flatMap dirsAbove

/-- A request puts nothing at a link but the link, and nothing above it but directories. -/
def Spares (r : DeviceRequest) (l : String) : Prop :=
  l ∉ r.dirs ∧ r.devpath ≠ l ∧ ∀ d ∈ dirsAbove l, r.devpath ≠ d ∧ d ∉ r.links

end DeviceRequest

instance (r : DeviceRequest) (l : String) : Decidable (r.Spares l) :=
  inferInstanceAs (Decidable (l ∉ r.dirs ∧ r.devpath ≠ l ∧ ∀ d ∈ dirsAbove l, r.devpath ≠ d ∧ d ∉ r.links))

/-- A link's path with an owner, or without one: what stands there, and what the directories above it may be. -/
structure Stands (w : DevWorld) (l : String) (o : Option String) : Prop where
  entry : w.entry l = o.map .link
  dirs : ∀ d ∈ dirsAbove l, w.entry d = none ∨ w.entry d = some .dir
  parent : o ≠ none → w.entry (pathDirname l) = some .dir
  root : w.entry "/" = some .dir

namespace DeviceLinksAux

variable {K : DevKernel} {w w' : DevWorld} {l : String} {o : Option String}

theorem ne_node (o : Option String) (m u g : Nat) (c : String) (d : Int × Int) :
    o.map DevEntry.link ≠ some (.node m u g c d) := by
  cases o <;> simp

theorem handle_eq (hK : K.Willing) (op : DevCall) (w : DevWorld) :
    K.handle op w = ((K.perform w op).1, { (K.perform w op).2 with tick := w.tick + 1 }) := handle_performed (hK w.tick op)

/-- A call that neither touches the link nor occupies a directory above it. -/
theorem stands_handle {op : DevCall} (hl : ¬op.touches l) (hd : ∀ d ∈ dirsAbove l, ¬op.occupies d) (h : Stands w l o) :
    Stands (K.handle op w).2 l o where
  entry := entry_stays hl (ne_node o) h.entry
  dirs d hmem := dirable_stays (hd d hmem) (h.dirs d hmem)
  parent ho := dir_stays op (h.parent ho)
  root := dir_stays op h.root

/-- A condition on calls that keeps a link and the directories above it. -/
def Sparing (l : String) (op : DevCall) : Prop := ¬op.touches l ∧ ∀ d ∈ dirsAbove l, ¬op.occupies d

theorem occupies_touches {op : DevCall} {d : String} (h : op.occupies d) : op.touches d := by
  cases op <;> first | exact h | exact h.elim

theorem quiet_sparing (l : String) : QuietCalls (Sparing l) := fun _ h => ⟨h l, fun d _ hocc => h d (occupies_touches hocc)⟩

/-- A program of such calls. -/
theorem stands_run {α : Type} {m : DevProg α} {r : Except String α} (hm : m.Uses (Sparing l)) (h : Stands w l o)
    (hrun : m.run K.handle w = (r, w')) : Stands w' l o := by
  have hkeep := run_invariant_on K.handle _ (fun w => Stands w l o) (fun op w hop hw => stands_handle hop.1 hop.2 hw) m hm w h
  rw [hrun] at hkeep
  exact hkeep

/-! ### Directories -/

theorem dir_run {α : Type} {m : DevProg α} {r : Except String α} {d : String} (h : w.entry d = some .dir)
    (hrun : m.run K.handle w = (r, w')) : w'.entry d = some .dir := by
  have hkeep := run_invariant K.handle (fun w => w.entry d = some .dir) (fun op w => dir_stays op) m w h
  rw [hrun] at hkeep
  exact hkeep

theorem mkdir_makes (hK : K.Willing) {d : String} (mode : Nat) (hd : w.entry d = none ∨ w.entry d = some .dir)
    (hparent : w.entry (pathDirname d) = some .dir) :
    ((K.handle (.mkdir d mode) w).1 = (0 : Nat) ∨ (K.handle (.mkdir d mode) w).1 = eexist) ∧
      (K.handle (.mkdir d mode) w).2.entry d = some .dir := by
  rw [handle_eq hK]
  rcases hd with hd | hd
  · simp only [perform, DevWorld.make_of_free .dir hd hparent, DevWorld.entry_tick, DevWorld.entry_put, if_true]
    simp
  · simp only [perform, DevWorld.make_of_taken .dir hd, DevWorld.entry_tick, hd]
    simp

/-- `make_dir` where a directory may be. -/
theorem makeDir_makes (hK : K.Willing) {d : String} {mode errno : Nat} (hd : w.entry d = none ∨ w.entry d = some .dir)
    (hparent : w.entry (pathDirname d) = some .dir) (hrun : (makeDir d mode).run K.handle w = (.ok errno, w')) :
    (errno = 0 ∨ errno = eexist) ∧ w'.entry d = some .dir := by
  unfold makeDir at hrun
  obtain ⟨found, w₁, hfound, hrun⟩ := run_bind_ok hrun
  obtain ⟨_, w₂, hset, hrun⟩ := run_bind_ok hrun
  obtain ⟨rc, w₃, hmkdir, hrun⟩ := run_bind_ok hrun
  obtain ⟨_, w₄, hclear, hrun⟩ := run_bind_ok hrun
  obtain ⟨hrc, rfl⟩ := Prod.mk.inj hrun
  obtain rfl := Except.ok.inj hrc
  have hquiet : ∀ {α : Type} {m : DevProg α} {a : α} {v v' : DevWorld}, m.Uses (fun op => ∀ q, ¬op.touches q) →
      m.run K.handle v = (.ok a, v') → (v.entry d = none ∨ v.entry d = some .dir) → v'.entry d = none ∨ v'.entry d = some .dir := by
    intro α m a v v' hm hv hd
    have hkeep := run_invariant_on K.handle _ (fun w => w.entry d = none ∨ w.entry d = some .dir)
      (fun op w hop => dirable_stays (fun hocc => hop d (occupies_touches hocc))) m hm v hd
    rw [hv] at hkeep
    exact hkeep
  have hd₁ := hquiet (uses_ask (fun op h => h) fun _ => id) hfound hd
  have hd₂ := hquiet (uses_when fun _ => uses_quiet (fun op h => h) fun _ => id) hset hd₁
  have hmade := mkdir_makes hK mode hd₂ (dir_run (dir_run hparent hfound) hset)
  obtain ⟨hrc, hw₃⟩ := Prod.mk.inj hmkdir
  rw [← Except.ok.inj hrc]
  refine ⟨hmade.1, dir_run ?_ hclear⟩
  rw [← hw₃]
  exact hmade.2

/-- Directories each of which is in a directory that is there, or in one before it. -/
def Ladder (base ds : List String) : Prop :=
  ∀ before d after, ds = before ++ d :: after → pathDirname d ∈ base ∨ pathDirname d ∈ before

theorem Ladder.tail {base ds : List String} {d : String} (h : Ladder base (d :: ds)) : Ladder (d :: base) ds := by
  intro before d' after hds
  rcases h (d :: before) d' after (by rw [hds]; rfl) with h | h
  · exact .inl (List.mem_cons_of_mem d h)
  · rcases List.mem_cons.1 h with h | h
    · exact .inl (h ▸ List.mem_cons_self)
    · exact .inr h

/-- `mkdirAll` makes a ladder of directories. -/
theorem mkdirAll_makes (hK : K.Willing) {mode : Nat} {base ds : List String} {ok : Bool} (hladder : Ladder base ds)
    (hbase : ∀ d ∈ base, w.entry d = some .dir) (hds : ∀ d ∈ ds, w.entry d = none ∨ w.entry d = some .dir)
    (hrun : (mkdirAll mode ds).run K.handle w = (.ok ok, w')) : ok = true ∧ ∀ d ∈ ds, w'.entry d = some .dir := by
  induction ds generalizing w base with
  | nil =>
    obtain ⟨hok, rfl⟩ := Prod.mk.inj hrun
    exact ⟨(Except.ok.inj hok).symm, by simp⟩
  | cons d ds ih =>
    obtain ⟨found, w₁, hstat, hrun⟩ := run_bind_ok hrun
    have hparent : w.entry (pathDirname d) = some .dir := by
      rcases hladder [] d ds rfl with h | h
      · exact hbase _ h
      · simp at h
    have hd := hds d List.mem_cons_self
    have hrest : ∀ {v : DevWorld}, (∀ q, w₁.entry q = some .dir → v.entry q = some .dir) → v.entry d = some .dir →
        (∀ q ∈ ds, v.entry q = none ∨ v.entry q = some .dir) → (mkdirAll mode ds).run K.handle v = (.ok ok, w') →
        ok = true ∧ ∀ q ∈ d :: ds, w'.entry q = some .dir := by
      intro v hkeep hvd hv hloop
      obtain ⟨hok, hall⟩ := ih hladder.tail (fun q hq => by
        rcases List.mem_cons.1 hq with rfl | hq
        · exact hvd
        · exact hkeep q (dir_run (hbase q hq) hstat)) hv hloop
      refine ⟨hok, fun q hq => ?_⟩
      rcases List.mem_cons.1 hq with rfl | hq
      · exact dir_run hvd hloop
      · exact hall q hq
    have hw₁ : ∀ q, w₁.entry q = w.entry q := by
      obtain ⟨-, rfl⟩ := Prod.mk.inj hstat
      intro q
      rw [handle_eq hK]
      rfl
    have hds₁ : ∀ q ∈ ds, w₁.entry q = none ∨ w₁.entry q = some .dir := fun q hq => by
      rw [hw₁]
      exact hds q (List.mem_cons_of_mem d hq)
    split at hrun
    · next hfound =>
      refine hrest (fun q => id) ?_ hds₁ hrun
      rw [hw₁]
      rcases hd with hd | hd
      · obtain ⟨hans, -⟩ := Prod.mk.inj hstat
        rw [handle_eq hK] at hans
        have : found = false := by
          rw [← Except.ok.inj hans]
          simp [perform, DevWorld.target, hd]
        rw [this] at hfound
        cases hfound
      · exact hd
    · obtain ⟨errno, w₂, hmake, hrun⟩ := run_bind_ok hrun
      have hmade := makeDir_makes hK (w := w₁) (by rw [hw₁]; exact hd) (by rw [hw₁]; exact hparent) hmake
      split at hrun
      · next herr => exact absurd hmade.1 (by simpa using herr)
      · refine hrest (fun q hq => dir_run hq hmake) hmade.2 (fun q hq => ?_) hrun
        have hkeep := run_invariant_on K.handle (fun op => ¬op.occupies q) (fun w => w.entry q = none ∨ w.entry q = some .dir)
          (fun op w hop => dirable_stays hop) _ (uses_makeDir (fun op h hocc => h q (occupies_touches hocc)) id : (makeDir d mode).Uses _) w₁ (hds₁ q hq)
        rw [hmake] at hkeep
        exact hkeep

/-! ### The directories above a path of names -/

theorem dirsAbove_names {names : List (List Char)} {name : List Char} (hne : names ≠ []) (hnames : ∀ n ∈ names, IsName n)
    (hname : IsName name) : pathDirname (String.ofList (pathOf names ++ '/' :: name)) = String.ofList (pathOf names) := by
  unfold pathDirname
  rw [String.toList_ofList, dirname_join (isDirPath_pathOf hne hnames) hname]

theorem dirsAbove_root {name : List Char} (hname : IsName name) : pathDirname (String.ofList (pathOf [] ++ '/' :: name)) = "/" := by
  have h : pathOf [] ++ '/' :: name = '/' :: name := rfl
  unfold pathDirname
  rw [h, String.toList_ofList, dirname_root hname]

theorem ladder_names {names : List (List Char)} (h : ∀ n ∈ names, IsName n) :
    Ladder ["/"] ((upperDirs (pathOf names)).map String.ofList) := by
  induction names using List.reverseRecOn with
  | nil =>
    intro before d after hds
    simp [pathOf, upperDirs, upperDirsFrom] at hds
  | append_singleton names name ih =>
    have hname := h name (by simp)
    have hnames : ∀ n ∈ names, IsName n := fun n hn => h n (by simp [hn])
    rcases eq_or_ne names [] with rfl | hne
    · intro before d after hds
      rw [pathOf_concat] at hds
      simp [pathOf, upperDirs_root hname.2] at hds
    · have hdir := isDirPath_pathOf hne hnames
      rw [pathOf_concat, upperDirs_join hdir.ne_nil hname.2, List.map_append]
      intro before d after hds
      rw [List.map_singleton] at hds
      rcases last_cases hds with ⟨rfl, rfl, rfl⟩ | ⟨after', rfl, hbefore⟩
      · obtain ⟨start, last, rfl⟩ := List.eq_nil_or_concat names |>.resolve_left hne
        rw [List.concat_eq_append] at *
        have hlast := hnames last (by simp)
        rw [pathOf_concat]
        rcases eq_or_ne start [] with rfl | hstart
        · left
          rw [dirsAbove_root hlast]
          exact List.mem_singleton_self _
        · right
          have hstart' : ∀ n ∈ start, IsName n := fun n hn => hnames n (by simp [hn])
          rw [dirsAbove_names hstart hstart' hlast, upperDirs_join (isDirPath_pathOf hstart hstart').ne_nil hlast.2]
          simp
      · exact ih hnames before d after' hbefore

/-- `mkdir_recursive` makes the directory that a link is put in. -/
theorem mkdirRecursive_makes (hK : K.Willing) (hl : NamedPath l) {mode : Nat} {ok : Bool} (h : Stands w l o)
    (hrun : (mkdirRecursive (pathDirname l) mode).run K.handle w = (.ok ok, w')) : w'.entry (pathDirname l) = some .dir := by
  obtain ⟨names, name, hnames, hname, rfl⟩ := hl
  rcases eq_or_ne names [] with rfl | hne
  · rw [dirsAbove_root hname] at hrun ⊢
    exact dir_run h.root hrun
  · have hdirname := dirsAbove_names hne hnames hname
    have hdirs := h.dirs
    unfold dirsAbove at hdirs
    rw [hdirname] at hrun hdirs ⊢
    unfold mkdirRecursive at hrun
    obtain ⟨all, w₁, hall, hrun⟩ := run_bind_ok hrun
    rw [String.toList_ofList] at hall hdirs
    have hmade := mkdirAll_makes hK (ladder_names hnames) (by simpa using h.root)
      (fun d hd => hdirs d (List.mem_append_left _ hd)) hall
    rw [if_pos hmade.1] at hrun
    obtain ⟨errno, w₂, hlast, hrun⟩ := run_bind_ok hrun
    obtain ⟨-, rfl⟩ := Prod.mk.inj hrun
    have hdirable : w₁.entry (String.ofList (pathOf names)) = none ∨ w₁.entry (String.ofList (pathOf names)) = some .dir := by
      have hkeep := run_invariant_on K.handle (fun op => ¬op.occupies (String.ofList (pathOf names)))
        (fun w => w.entry (String.ofList (pathOf names)) = none ∨ w.entry (String.ofList (pathOf names)) = some .dir)
        (fun op w hop => dirable_stays hop) _
        (uses_mkdirAll (fun op hop hocc => hop _ (occupies_touches hocc)) (fun d _ => id) : (mkdirAll mode
          ((upperDirs (pathOf names)).map String.ofList)).Uses _) w
        (hdirs _ (List.mem_append_right _ (List.mem_singleton_self _)))
      rw [hall] at hkeep
      exact hkeep
    refine (makeDir_makes hK hdirable ?_ hlast).2
    obtain ⟨start, last, rfl⟩ := List.eq_nil_or_concat names |>.resolve_left hne
    rw [List.concat_eq_append] at *
    have hlastName := hnames last (by simp)
    have hstart : ∀ n ∈ start, IsName n := fun n hn => hnames n (by simp [hn])
    rw [pathOf_concat]
    rcases eq_or_ne start [] with rfl | hstartne
    · rw [dirsAbove_root hlastName]
      exact dir_run h.root hall
    · rw [dirsAbove_names hstartne hstart hlastName]
      refine hmade.2 _ ?_
      rw [pathOf_concat, upperDirs_join (isDirPath_pathOf hstartne hstart).ne_nil hlastName.2]
      simp

/-! ### One request -/

/-- The loop that makes links: the link is made for the device if it is in the list and free. -/
theorem makeLinks_stands (hK : K.Willing) (hl : NamedPath l) {devpath : String} {links : List String}
    (hlinks : ∀ link ∈ links, l ∉ dirsAbove link ∧ link ∉ dirsAbove l) (h : Stands w l o)
    (hrun : (makeLinks devpath links).run K.handle w = (.ok (), w')) :
    Stands w' l (o.or (if l ∈ links then some devpath else none)) := by
  induction links generalizing w o with
  | nil =>
    obtain ⟨-, rfl⟩ := Prod.mk.inj hrun
    simpa using h
  | cons link links ih =>
    obtain ⟨ok, w₁, hmk, hrun⟩ := run_bind_ok hrun
    obtain ⟨_, w₂, hsym, hrun⟩ := run_bind_ok hrun
    obtain ⟨habove, hbelow⟩ := hlinks link List.mem_cons_self
    have hrest : ∀ link ∈ links, l ∉ dirsAbove link ∧ link ∉ dirsAbove l := fun q hq => hlinks q (List.mem_cons_of_mem _ hq)
    have h₁ : Stands w₁ l o := by
      refine stands_run (uses_mkdirRecursive (quiet_sparing l) fun d hd => ⟨?_, fun _ _ => id⟩) h hmk
      rintro rfl
      exact habove hd
    by_cases hlink : link = l
    · subst hlink
      rw [if_pos List.mem_cons_self]
      have h₂ : Stands w₂ link (o.or (some devpath)) := by
        obtain ⟨-, rfl⟩ := Prod.mk.inj hsym
        have hdirs : ∀ d ∈ dirsAbove link, ¬DevCall.occupies d (.symlink devpath link) := by
          rintro d hd (rfl : link = d)
          exact hbelow hd
        refine ⟨?_, fun d hd => dirable_stays (hdirs d hd) (h₁.dirs d hd), ?_, dir_stays _ h₁.root⟩
        · rw [handle_eq hK]
          cases o with
          | none =>
            simp [perform, DevWorld.make_of_free (.link devpath) h₁.entry (mkdirRecursive_makes hK hl h hmk), DevWorld.entry_put]
          | some d => simp [perform, DevWorld.make_of_taken (.link devpath) h₁.entry, h₁.entry]
        · intro _
          exact dir_stays _ (mkdirRecursive_makes hK hl h hmk)
      have hall := ih hrest h₂ hrun
      rwa [show (o.or (some devpath)).or (if link ∈ links then some devpath else none) = o.or (some devpath) by
        cases o <;> simp] at hall
    · have h₂ : Stands w₂ l o := by
        obtain ⟨-, rfl⟩ := Prod.mk.inj hsym
        refine stands_handle hlink ?_ h₁
        rintro d hd (rfl : link = d)
        exact hbelow hd
      have hall := ih hrest h₂ hrun
      simpa [Ne.symm hlink] using hall

/-- `unlink` of the link, or of another path. -/
theorem stands_unlink (hK : K.Willing) (path : String) (h : Stands w l o) :
    Stands (K.handle (.unlink path) w).2 l (if path = l then none else o) := by
  split
  · next heq =>
    subst heq
    refine ⟨?_, fun d hd => dirable_stays (fun hocc => hocc) (h.dirs d hd), fun hne => absurd rfl hne, dir_stays _ h.root⟩
    rw [handle_eq hK]
    have hentry := h.entry
    cases o with
    | none => simp [perform, hentry]
    | some d => simp [perform, hentry, DevWorld.entry_erase]
  · next hne => exact stands_handle hne (fun _ _ => id) h

/-- What the loop that removes links leaves of the link: nothing, if the list has it and it points to the device. -/
theorem removeLinks_stands (hK : K.Willing) {devpath : String} {links : List String} (h : Stands w l o)
    (hrun : (removeLinks devpath links).run K.handle w = (.ok (), w')) :
    Stands w' l (if l ∈ links ∧ o = some devpath then none else o) := by
  induction links generalizing w o with
  | nil =>
    obtain ⟨-, rfl⟩ := Prod.mk.inj hrun
    simpa using h
  | cons link links ih =>
    obtain ⟨linkPath, w₁, hread, hrest⟩ := run_bind_ok hrun
    obtain ⟨_, w₂, hunlink, hloop⟩ := run_bind_ok hrest
    have h₁ : Stands w₁ l o := stands_run (uses_ask (quiet_sparing l) fun _ => id) h hread
    by_cases hlink : link = l
    · subst hlink
      have howner : linkPath = o := by
        obtain ⟨hans, -⟩ := Prod.mk.inj hread
        rw [← Except.ok.inj hans, handle_eq hK]
        cases o <;> simp [perform, h.entry]
      rw [howner] at hunlink
      by_cases hown : o = some devpath
      · have h₂ : Stands w₂ link none := by
          rw [DevProg.when, if_pos hown] at hunlink
          obtain ⟨-, rfl⟩ := Prod.mk.inj hunlink
          simpa using stands_unlink hK link h₁
        simpa [hown] using ih h₂ hloop
      · have h₂ : Stands w₂ link o := by
          rw [DevProg.when, if_neg hown] at hunlink
          obtain ⟨-, rfl⟩ := Prod.mk.inj hunlink
          exact h₁
        simpa [hown] using ih h₂ hloop
    · have h₂ : Stands w₂ l o := 
        stands_run (uses_when fun _ => uses_call' (.unlink link) ⟨hlink, fun _ _ => id⟩) h₁ hunlink
      simpa [Ne.symm hlink] using ih h₂ hloop

/-- The name of a path in a directory. -/
theorem nameIn_eq_some {dir path name : String} (h : DevWorld.nameIn dir path = some name) :
    path = dir ++ "/" ++ name ∧ IsName name.toList := by
  unfold DevWorld.nameIn at h
  split at h
  · next hpre =>
    obtain ⟨rest, hrest⟩ := List.isPrefixOf_iff_prefix.1 hpre
    have hdrop : path.toList.drop (dir.length + 1) = rest := by
      rw [← hrest, String.toList_append]
      refine List.drop_left' ?_
      rw [List.length_append, String.length_toList]
      rfl
    rw [hdrop] at h
    dsimp only at h
    split at h
    · next hname =>
      obtain rfl := Option.some.inj h
      rw [String.toList_ofList]
      refine ⟨?_, hname⟩
      rw [← String.toList_inj, String.toList_append, String.toList_ofList, hrest]
    · cases h
  · cases h

/-- The directory that a name is in. -/
theorem pathDirname_of_nameIn {dir path name : String} (hdir : IsDirPath dir.toList) (h : DevWorld.nameIn dir path = some name) :
    pathDirname path = dir := by
  obtain ⟨rfl, hname⟩ := nameIn_eq_some h
  have htext : (dir ++ "/" ++ name).toList = dir.toList ++ '/' :: name.toList := by simp
  rw [pathDirname, htext, dirname_join hdir hname, String.ofList_toList]

/-- A link in a directory is among its names. -/
theorem mem_names {dir name t : String} (h : w.entry l = some (.link t)) (hname : DevWorld.nameIn dir l = some name) :
    (name, true) ∈ w.names dir := by
  obtain ⟨e, he, hentry⟩ := Option.map_eq_some_iff.1 h
  have hkey : e.1 = l := by simpa using List.find?_some he
  refine List.mem_filterMap.2 ⟨e, List.mem_of_find?_eq_some he, ?_⟩
  rw [hkey, hname, hentry]
  rfl

/-- What reading a directory gives. -/
theorem names_of_opendir {dir : String} {names : List (String × Bool)} (h : (K.perform w (.opendir dir)).1 = some names) :
    names = w.names dir := by
  rcases hentry : w.entry dir with _ | e
  · simp only [perform, hentry] at h
    cases h
  · cases e with
    | dir =>
      simp only [perform, hentry] at h
      exact (Option.some.inj h).symm
    | _ =>
      simp only [perform, hentry] at h
      cases h

/-- The links that the loop of a directory goes over are in the directory. -/
theorem nameIn_of_mapped {dir : String} (h : l ∈ ((w.names dir).filter (·.2)).map (fun n => dir ++ "/" ++ n.1)) :
    (DevWorld.nameIn dir l).isSome := by
  obtain ⟨n, hn, rfl⟩ := List.mem_map.1 h
  obtain ⟨e, -, he⟩ := List.mem_filterMap.1 (List.mem_of_mem_filter hn)
  obtain ⟨name, hname, rfl⟩ := Option.map_eq_some_iff.1 he
  rw [← (nameIn_eq_some hname).1, hname]
  rfl

/-- The loop of one directory of device-mapper links. -/
theorem removeLinksIn_dir (hK : K.Willing) {devpath dir : String} (hdir : IsDirPath dir.toList) {found : Bool}
    (hfound : found = (w.entry (w.target dir)).isSome) (h : Stands w l o)
    (hrun : (DevProg.when found do
        let dh : Option (List (String × Bool)) ← DevProg.lift (.opendir dir)
        match dh with
        | none => pure ()
        | some names => removeLinks devpath ((names.filter (·.2)).map (fun n => dir ++ "/" ++ n.1))).run K.handle w = (.ok (), w')) :
    Stands w' l (if (DevWorld.nameIn dir l).isSome ∧ o = some devpath then none else o) := by
  by_cases hmapped : (DevWorld.nameIn dir l).isSome ∧ o = some devpath
  · obtain ⟨name, hname⟩ := Option.isSome_iff_exists.1 hmapped.1
    have hd : w.entry dir = some .dir := by
      rw [← pathDirname_of_nameIn hdir hname]
      exact h.parent (by simp [hmapped.2])
    have htarget : w.target dir = dir := by simp [DevWorld.target, hd]
    rw [hfound, htarget, hd, DevProg.when, if_pos (show (some DevEntry.dir).isSome = true from rfl)] at hrun
    obtain ⟨dh, w₁, hopen, hrest⟩ := run_bind_ok hrun
    have h₁ : Stands w₁ l o := stands_run (uses_ask (quiet_sparing l) fun _ => id) h hopen
    have hdh : dh = some (w.names dir) := by
      obtain ⟨hans, -⟩ := Prod.mk.inj hopen
      rw [← Except.ok.inj hans, handle_eq hK]
      simp [perform, hd]
    rw [hdh] at hrest
    have hmem : l ∈ ((w.names dir).filter (·.2)).map (fun n => dir ++ "/" ++ n.1) := by
      refine List.mem_map.2 ⟨(name, true), List.mem_filter.2 ⟨mem_names (t := devpath) ?_ hname, rfl⟩, ?_⟩
      · rw [h.entry, hmapped.2]
        rfl
      · exact (nameIn_eq_some hname).1.symm
    simpa [hmapped, hmem] using removeLinks_stands hK h₁ hrest
  · rw [if_neg hmapped]
    unfold DevProg.when at hrun
    split at hrun
    · obtain ⟨dh, w₁, hopen, hrest⟩ := run_bind_ok hrun
      have h₁ : Stands w₁ l o := stands_run (uses_ask (quiet_sparing l) fun _ => id) h hopen
      split at hrest
      · obtain ⟨-, rfl⟩ := Prod.mk.inj hrest
        exact h₁
      · next names =>
        have hnames : names = w.names dir := by
          obtain ⟨hans, -⟩ := Prod.mk.inj hopen
          have hans' := Except.ok.inj hans
          rw [handle_eq hK] at hans'
          exact names_of_opendir (K := K) hans'
        have hall := removeLinks_stands hK h₁ hrest
        rwa [if_neg] at hall
        rintro ⟨hmem, hown⟩
        rw [hnames] at hmem
        exact hmapped ⟨nameIn_of_mapped hmem, hown⟩
    · obtain ⟨-, rfl⟩ := Prod.mk.inj hrun
      exact h

/-- The loop over the directories of device-mapper links. -/
theorem removeLinksIn_stands (hK : K.Willing) {devpath : String} {dirs : List String} (hdirs : ∀ d ∈ dirs, IsDirPath d.toList)
    (h : Stands w l o) (hrun : (removeLinksIn devpath dirs).run K.handle w = (.ok (), w')) :
    Stands w' l (if (∃ d ∈ dirs, (DevWorld.nameIn d l).isSome) ∧ o = some devpath then none else o) := by
  induction dirs generalizing w o with
  | nil =>
    obtain ⟨-, rfl⟩ := Prod.mk.inj hrun
    simpa using h
  | cons dir dirs ih =>
    obtain ⟨found, w₁, haccess, hrest⟩ := run_bind_ok hrun
    obtain ⟨_, w₂, hscan, hloop⟩ := run_bind_ok hrest
    have h₁ : Stands w₁ l o := stands_run (uses_ask (quiet_sparing l) fun _ => id) h haccess
    have hfound : found = (w₁.entry (w₁.target dir)).isSome := by
      obtain ⟨hans, rfl⟩ := Prod.mk.inj haccess
      rw [← Except.ok.inj hans, handle_eq hK]
      rfl
    have h₂ := removeLinksIn_dir hK (hdirs dir List.mem_cons_self) hfound h₁ hscan
    have hall := ih (fun d hd => hdirs d (List.mem_cons_of_mem _ hd)) h₂ hloop
    by_cases hown : o = some devpath
    · by_cases hname : (DevWorld.nameIn dir l).isSome
      · simpa [hown, hname] using hall
      · simpa [hown, hname] using hall
    · simpa [hown] using hall

theorem isDirPath_mapperDirs : ∀ d ∈ mapperDirs, IsDirPath d.toList := by
  intro d hd
  rcases List.mem_cons.1 hd with rfl | hd
  · exact ⟨"/dev/block/mappe".toList, 'r', by decide, by decide⟩
  · rw [List.mem_singleton.1 hd]
    exact ⟨"/dev/block/mapper/by-uui".toList, 'd', by decide, by decide⟩

/-- An owner that is removed for either of two reasons. -/
theorem removed_twice {d : String} (A M : Prop) [Decidable A] [Decidable M] :
    (if M ∧ (if A ∧ o = some d then none else o) = some d then none else if A ∧ o = some d then none else o) =
      if (M ∨ A) ∧ o = some d then none else o := by
  by_cases ho : o = some d
  · by_cases hA : A <;> by_cases hM : M <;> simp [ho, hA, hM]
  · simp [ho]

theorem release_iff {r : DeviceRequest} {d : String} : r.release l d = true ↔ r.action = "remove" ∧ r.devpath = d ∧
    (l ∈ r.links ∨ (startsWith d "/dev/block/dm-" ∧ ∃ dir ∈ mapperDirs, (DevWorld.nameIn dir l).isSome)) := by
  simp [DeviceRequest.release, and_assoc]

/-- What removing a device leaves of a link. -/
theorem removeDevice_stands (hK : K.Willing) {r : DeviceRequest} (hr : r.action = "remove") (hl : r.devpath ≠ l)
    (h : Stands w l o)
    (hrun : (do
        DevProg.when (startsWith r.devpath "/dev/block/dm-") (removeDeviceMapperLinks r.devpath)
        removeLinks r.devpath r.links
        DevProg.call (.unlink r.devpath)).run K.handle w = (.ok (), w')) :
    Stands w' l (ownerStep DeviceRequest.claim DeviceRequest.release l o r) := by
  obtain ⟨_, w₁, hmapper, hrest⟩ := run_bind_ok hrun
  obtain ⟨_, w₂, hlinks, hunlink⟩ := run_bind_ok hrest
  have h₁ : Stands w₁ l (if (startsWith r.devpath "/dev/block/dm-" ∧ ∃ d ∈ mapperDirs, (DevWorld.nameIn d l).isSome) ∧
      o = some r.devpath then none else o) := by
    unfold DevProg.when at hmapper
    split at hmapper
    · next hdm => simpa [hdm] using removeLinksIn_stands hK isDirPath_mapperDirs h hmapper
    · next hdm =>
      obtain ⟨-, rfl⟩ := Prod.mk.inj hmapper
      simpa [hdm] using h
  have h₂ := removeLinks_stands hK h₁ hlinks
  have h₃ : Stands w' l _ := stands_run (uses_call' (.unlink r.devpath) ⟨hl, fun _ _ => id⟩) h₂ hunlink
  cases o with
  | none => simpa [ownerStep, DeviceRequest.claim, hr] using h₃
  | some d =>
    rw [removed_twice] at h₃
    unfold ownerStep
    dsimp only
    by_cases hrel : r.release l d = true
    · rw [if_pos hrel]
      obtain ⟨-, rfl, hwhy⟩ := release_iff.1 hrel
      rwa [if_pos ⟨hwhy, rfl⟩] at h₃
    · rw [if_neg hrel]
      refine cast (congrArg (Stands w' l) (if_neg ?_)) h₃
      rintro ⟨hwhy, hd⟩
      obtain rfl := Option.some.inj hd
      exact hrel (release_iff.2 ⟨hr, rfl, hwhy⟩)

/-- One request is one step of the registry. -/
theorem handleRequest_stands (hK : K.Willing) (hl : NamedPath l) {H : DeviceHandler} {r : DeviceRequest} (hr : r.Spares l)
    (h : Stands w l o) (hrun : (H.handleRequest r).run K.handle w = (.ok (), w')) :
    Stands w' l (ownerStep DeviceRequest.claim DeviceRequest.release l o r) := by
  obtain ⟨hdirs, hnode, habove⟩ := hr
  obtain ⟨ok, w₁, hmk, hrest⟩ := run_bind_ok hrun
  obtain ⟨_, w₂, hadd, hrest⟩ := run_bind_ok hrest
  obtain ⟨_, w₃, hlinks, hremove⟩ := run_bind_ok hrest
  have h₁ : Stands w₁ l o := by
    refine stands_run (uses_mkdirRecursive (quiet_sparing l) fun d hd => ⟨?_, fun _ _ => id⟩) h hmk
    rintro rfl
    exact hdirs (List.mem_append_left _ hd)
  have h₂ : Stands w₂ l o := by
    refine stands_run (uses_when fun _ => uses_makeDevice (quiet_sparing l) fun mode => ⟨hnode, ?_⟩) h₁ hadd
    intro d hd
    exact (habove d hd).1
  by_cases hremoved : r.action = "remove"
  · have h₃ : Stands w₃ l o := by
      simp only [DevProg.when, hremoved] at hlinks
      obtain ⟨-, rfl⟩ := Prod.mk.inj hlinks
      exact h₂
    rw [DevProg.when, if_pos hremoved] at hremove
    exact removeDevice_stands hK hremoved hnode h₃ hremove
  · rw [DevProg.when, if_neg hremoved] at hremove
    obtain ⟨-, rfl⟩ := Prod.mk.inj hremove
    unfold DevProg.when at hlinks
    split at hlinks
    · next hmake =>
      have h₃ := makeLinks_stands hK hl (fun link hlink => ⟨?_, ?_⟩) h₂ hlinks
      · cases o with
        | none =>
          by_cases hmem : l ∈ r.links
          · simpa [ownerStep, DeviceRequest.claim, hmake, hmem] using h₃
          · simpa [ownerStep, DeviceRequest.claim, hmake, hmem] using h₃
        | some d => simpa [ownerStep, DeviceRequest.release, hremoved] using h₃
      · intro hmem
        exact hdirs (List.mem_append_right _ (List.mem_flatMap.2 ⟨link, hlink, hmem⟩))
      · intro hmem
        exact (habove link hmem).2 hlink
    · next hmake =>
      obtain ⟨-, rfl⟩ := Prod.mk.inj hlinks
      cases o with
      | none => simpa [ownerStep, DeviceRequest.claim, hmake] using h₂
      | some d => simpa [ownerStep, DeviceRequest.release, hremoved] using h₂

/-! ### A run comes to its end -/

/-- A program that comes to its end in every state. -/
def Ends (K : DevKernel) {α : Type} (m : DevProg α) : Prop := ∀ w, ∃ a w', m.run K.handle w = (.ok a, w')

theorem ends_pure {α : Type} (a : α) : Ends K (pure a) := fun w => ⟨a, w, rfl⟩

theorem Ends.bind {α β : Type} {m : DevProg α} {f : α → DevProg β} (hm : Ends K m) (hf : ∀ a, Ends K (f a)) : Ends K (m >>= f) := by
  intro w
  obtain ⟨a, w₁, hrun⟩ := hm w
  rw [run_bind, hrun]
  exact hf a w₁

theorem ends_ask (op : DevCall) : Ends K (DevProg.lift op) := fun _ => ⟨_, _, rfl⟩

theorem ends_call (op : DevCall) : Ends K (DevProg.call op) := (ends_ask op).bind (fun _ => ends_pure ())

theorem ends_when {c : Prop} [Decidable c] {m : DevProg Unit} (h : Ends K m) : Ends K (DevProg.when c m) := by
  unfold DevProg.when
  split
  · exact h
  · exact ends_pure ()

theorem ends_makeDir (path : String) (mode : Nat) : Ends K (makeDir path mode) :=
  (ends_ask _).bind fun _ => (ends_when (ends_call _)).bind fun _ => (ends_ask _).bind fun _ =>
    (ends_when (ends_call _)).bind fun _ => ends_pure _

theorem ends_mkdirRecursive (path : String) (mode : Nat) : Ends K (mkdirRecursive path mode) := by
  have hall : ∀ dirs, Ends K (mkdirAll mode dirs) := by
    intro dirs
    induction dirs with
    | nil => exact ends_pure true
    | cons d dirs ih =>
      refine (ends_ask _).bind fun found => ?_
      split
      · exact ih
      · refine (ends_makeDir d mode).bind fun errno => ?_
        split
        · exact ends_pure false
        · exact ih
  refine (hall _).bind fun ok => ?_
  split
  · exact (ends_makeDir path mode).bind fun _ => ends_pure _
  · exact ends_pure false

theorem ends_removeLinks (devpath : String) (links : List String) : Ends K (removeLinks devpath links) := by
  induction links with
  | nil => exact ends_pure ()
  | cons link links ih => exact (ends_ask _).bind fun _ => (ends_when (ends_call _)).bind fun _ => ih

theorem ends_removeLinksIn (devpath : String) (dirs : List String) : Ends K (removeLinksIn devpath dirs) := by
  induction dirs with
  | nil => exact ends_pure ()
  | cons dir dirs ih =>
    refine (ends_ask _).bind fun _ => (ends_when ((ends_ask _).bind fun dh => ?_)).bind fun _ => ih
    split
    · exact ends_pure ()
    · exact ends_removeLinks _ _

theorem ends_makeLinks (devpath : String) (links : List String) : Ends K (makeLinks devpath links) := by
  induction links with
  | nil => exact ends_pure ()
  | cons link links ih => exact (ends_mkdirRecursive _ _).bind fun _ => (ends_call _).bind fun _ => ih

/-- The group of the process can be set back. -/
theorem ends_restoreCredentials (hK : K.Willing) (secontext : String) : Ends K (restoreCredentials secontext) := by
  intro w
  have hgid : (K.handle (.setegid 0) w).1 = (0 : Nat) := by rw [handle_eq hK]; rfl
  obtain ⟨a, w', hrest⟩ := ends_when (K := K) (c := secontext ≠ "") (ends_call (.setfscreatecon none)) (K.handle (.setegid 0) w).2
  refine ⟨a, w', ?_⟩
  unfold restoreCredentials
  rw [run_bind, DevProg.lift, run_lift]
  dsimp only
  rw [if_neg (not_not.2 hgid)]
  exact hrest

theorem ends_makeDevice (hK : K.Willing) (H : DeviceHandler) (path : String) (block : Bool) (major minor : Int) (links : List String) :
    Ends K (H.makeDevice path block major minor links) := by
  refine (ends_ask _).bind fun found => ?_
  split
  · exact ends_pure ()
  · refine (ends_when (ends_call _)).bind fun _ => Ends.bind ?_ fun _ => (ends_call _).bind fun _ => ends_restoreCredentials hK _
    refine (ends_ask _).bind fun refused => ?_
    split
    · exact ends_pure ()
    · refine (ends_ask _).bind fun errno => ends_when ((ends_ask _).bind fun fcon => ?_)
      split
      · exact ends_pure ()
      · exact ends_when (ends_call _)

theorem ends_handleDevice (hK : K.Willing) (H : DeviceHandler) (action devpath : String) (block : Bool) (major minor : Int)
    (links : List String) : Ends K (H.handleDevice action devpath block major minor links) :=
  (ends_when (ends_makeDevice hK _ _ _ _ _ _)).bind fun _ => (ends_when (ends_makeLinks _ _)).bind fun _ =>
    ends_when ((ends_when (ends_removeLinksIn _ _)).bind fun _ => (ends_removeLinks _ _).bind fun _ => ends_call _)

theorem ends_fixupSysPermissions (H : DeviceHandler) (S : Sysfs) (upath subsystem : String) :
    Ends K (H.fixupSysPermissions S upath subsystem) := by
  have hall : ∀ lines, Ends K (H.fixupEach S ("/sys" ++ upath) subsystem lines) := by
    intro lines
    induction lines with
    | nil => exact ends_pure ()
    | cons s lines ih =>
      exact (ends_when (ends_when ((ends_call _).bind fun _ => ends_call _))).bind fun _ => ih
  exact (hall _).bind fun _ => ends_when (ends_call _)

/-- A uevent whose name is not `ashmem`, or whose boot id makes it another, is handled once more at most. -/
theorem ends_handleUevent (hK : K.Willing) (H : DeviceHandler) {S : Sysfs} {depth : Nat} {u : Uevent}
    (h : ∀ dup, dupAshmemUevent S u = some dup → Ends K (H.handleUevent S depth dup)) : Ends K (H.handleUevent S (depth + 1) u) := by
  refine (ends_when (ends_fixupSysPermissions _ _ _ _)).bind fun _ => ?_
  split
  · exact ends_pure ()
  · split
    · exact ends_pure ()
    · refine (ends_mkdirRecursive _ _).bind fun _ => (ends_handleDevice hK _ _ _ _ _ _ _).bind fun _ => ?_
      split
      · exact ends_pure ()
      · next dup hdup => exact h dup hdup

/-- The boot id is not blank. -/
def BootIdSet (S : Sysfs) : Prop := (S.readFile "/proc/sys/kernel/random/boot_id").map trim ≠ some ""

instance (S : Sysfs) : Decidable (BootIdSet S) :=
  inferInstanceAs (Decidable ((S.readFile "/proc/sys/kernel/random/boot_id").map trim ≠ some ""))

theorem dup_of_dup {S : Sysfs} (hS : BootIdSet S) {u dup : Uevent} (h : dupAshmemUevent S u = some dup) :
    dupAshmemUevent S dup = none := by
  unfold dupAshmemUevent at h
  split at h
  · next hname =>
    obtain ⟨bootId, hread, rfl⟩ := Option.map_eq_some_iff.1 h
    unfold dupAshmemUevent
    rw [if_neg]
    intro heq
    dsimp only at heq
    rw [hname, ← String.toList_inj, String.toList_append] at heq
    have hblank : trim bootId = "" := by
      rw [← String.toList_inj]
      exact List.append_right_eq_self.1 heq
    exact hS (by rw [hread, Option.map_some, hblank])
  · cases h

theorem ends_handleAll (hK : K.Willing) (H : DeviceHandler) (depth : Nat) {us : List (Sysfs × Uevent)}
    (h : ∀ e ∈ us, BootIdSet e.1) : Ends K (H.handleAll (depth + 2) us) := by
  induction us with
  | nil => exact ends_pure ()
  | cons e us ih =>
    refine Ends.bind ?_ fun _ => ih fun e he => h e (List.mem_cons_of_mem _ he)
    refine ends_handleUevent hK H fun dup hdup => ends_handleUevent hK H fun dup' hdup' => ?_
    rw [dup_of_dup (h e List.mem_cons_self) hdup] at hdup'
    cases hdup'

end DeviceLinksAux

open DeviceLinksAux

variable {K : DevKernel} {w : DevWorld} {l : String}

/-- After any run of uevents a link points to a device exactly if a request for that device claimed it while it was free and no later
request released it; where no request holds it, nothing stands at its path. The path was free before, directories could be made above
it, no request puts anything but the link there, and only directories above it. -/
theorem link_points_to_claimant (hK : K.Willing) (H : DeviceHandler) (depth : Nat) {u : List (Sysfs × Uevent)}
    (hboot : ∀ e ∈ u, BootIdSet e.1) (hl : NamedPath l) (hw : Stands w l none) (hspares : ∀ r ∈ H.requests (depth + 2) u, r.Spares l) :
    ∃ w', (H.handleAll (depth + 2) u).run K.handle w = (.ok (), w') ∧
      (∀ d, w'.entry l = some (.link d) ↔
        ∃ before r after, H.requests (depth + 2) u = before ++ r :: after ∧
          owner DeviceRequest.claim DeviceRequest.release before l = none ∧ r.claim l = some d ∧
          ∀ r' ∈ after, r'.release l d = false) ∧
      ((∀ d, w'.entry l ≠ some (.link d)) → w'.entry l = none) := by
  obtain ⟨⟨⟩, w', hrun⟩ := ends_handleAll hK H depth hboot w
  have hstands : Stands w' l (owner DeviceRequest.claim DeviceRequest.release (H.requests (depth + 2) u) l) := by
    refine DeviceHandler.handleAll_requests (I := fun done w => Stands w l (owner DeviceRequest.claim DeviceRequest.release done l))
      ?_ (depth + 2) u ?_ hrun hw
    · intro done op w hop h
      exact stands_handle (hop l) (fun d _ hocc => hop d (occupies_touches hocc)) h
    · intro done r w w' hr hone h
      rw [owner_concat]
      exact handleRequest_stands hK hl (hspares r hr) h hone
  refine ⟨w', hrun, fun d => ?_, fun hnone => ?_⟩
  · rw [hstands.entry, ← owner_eq_some_iff]
    cases owner DeviceRequest.claim DeviceRequest.release (H.requests (depth + 2) u) l <;> simp
  · have hentry := hstands.entry
    cases howner : owner DeviceRequest.claim DeviceRequest.release (H.requests (depth + 2) u) l with
    | none => rw [hentry, howner]; rfl
    | some d =>
      rw [howner] at hentry
      exact absurd hentry (hnone d)

/-- A device-mapper device is added before its name is known, changes when it is, and is removed when its name is gone; another is
given the name then. -/
def mapperRun : List (Sysfs × Uevent) :=
  let named (n : String) : Sysfs := { readFile := fun p => if p = "/sys/devices/virtual/block/" ++ n ++ "/dm/name" then some "data\n" else none }
  let dm (action n : String) : Uevent :=
    { action, path := "/devices/virtual/block/" ++ n, subsystem := "block", deviceName := n, major := 253, minor := 0 }
  [({}, dm "add" "dm-0"), (named "dm-0", dm "change" "dm-0"), ({}, dm "remove" "dm-0"), (named "dm-1", dm "change" "dm-1")]

theorem link_points_to_claimant_mapper :
    ∃ w', (DeviceHandler.handleAll {} 2 mapperRun).run (DevKernel.handle {}) {} = (.ok (), w') ∧
      w'.entry "/dev/block/mapper/data" = some (.link "/dev/block/dm-1") := by
  obtain ⟨w', hrun, hlink, -⟩ := link_points_to_claimant (K := {}) (w := {}) (l := "/dev/block/mapper/data") (fun _ _ => rfl) {} 0
    (u := mapperRun) (by decide)
    ⟨["dev".toList, "block".toList, "mapper".toList], "data".toList, by decide, by decide, by decide⟩
    ⟨by decide, by decide, fun h => absurd rfl h, by decide⟩ (by decide)
  refine ⟨w', hrun, (hlink "/dev/block/dm-1").2 ⟨(DeviceHandler.requests {} 2 mapperRun).take 3,
    ⟨"change", "/dev/block/dm-1", true, 253, 0, ["/dev/block/mapper/data"]⟩, [], ?_, ?_, ?_, by simp⟩⟩
  · decide
  · decide
  · decide

end Innit
