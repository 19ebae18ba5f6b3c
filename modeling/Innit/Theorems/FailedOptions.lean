import Innit.RcParser

/-!
# Options that fail

A line of a service section that fails is reported, and the section goes on with the service as the line left it. Most options
check before they write. Six write as they read their words, and leave what they wrote: `capabilities`, `group`, `ioprio`,
`keycodes`, `namespace` and `priority`.
-/

namespace Innit

namespace ServiceParser

/-- The bit set of the capabilities named before the first word that names none, or one the kernel does not support. -/
def namedCapabilities (Γ : Ctx) : List String → Nat → Nat
  | [], caps => caps
  | arg :: args, caps => match Γ.lookupCap arg with
    | none => caps
    | some cap => if cap > Γ.lastValidCap then caps else namedCapabilities Γ args (caps ||| 2 ^ cap)

/-- The words of a `keycodes` line that stand for codes. -/
def keycodeWords (E : OptionEnv) (args : List String) : List String :=
  if args.length = 2 ∧ startsWith (args.getD 1 "") "$" then
    match expandProps E.ctx.vendorApi E.prop (args.getD 1 "") with
    | .error _ => []
    | .ok expanded => split expanded ','
  else args.tail

/-- What the words of an option that are taken before a refusal write is there already. -/
def WritesWhatIsThere (E : OptionEnv) (args : List String) (s : Service) : ServiceOption → Prop
  | .capabilities =>
    s.capabilities = some (if E.ctx.capAmbientSupported then namedCapabilities E.ctx args.tail 0 else 0)
  | .group => ∀ gid, decodeUid E.ctx.getpwnam (args.getD 1 "") = .ok gid →
      s.procAttr.gid = gid ∧ (decodeUid E.ctx.getpwnam (args.getD 2 "")).isOk = false
  | .ioprio => ∀ pri, parseInt (args.getD 2 "") 0 7 = some pri → s.procAttr.ioprioPri = pri
  | .keycodes => ∀ word ∈ (keycodeWords E args).head?, ∀ code, parseInt word 0 keyMax = some code → code ∈ s.keycodes
  | .namespace =>
    let taken := args.tail.takeWhile (fun w => w = "pid" ∨ w = "mnt")
    (taken ≠ [] → s.namespaces.newNs = true) ∧ ("pid" ∈ taken → s.namespaces.newPid = true)
  | .priority => s.procAttr.priority = 0
  | _ => True

end ServiceParser

namespace FailedOptionsAux

open ServiceParser

variable {Γ : Ctx} {E : OptionEnv} {args : List String} {s : Service}

/-- The result of an option is a refusal. -/
def Refused (r : OptionResult) : Prop := r.1.isOk = false

theorem not_accepted {s : Service} : ¬Refused (accept s) := by
  intro h
  cases h

/-! The options that write as they go -/

theorem addCapabilities_refused {caps : Nat} (h : Refused (addCapabilities Γ s args caps)) :
    (addCapabilities Γ s args caps).2 = { s with capabilities := some (namedCapabilities Γ args caps) } := by
  induction args generalizing caps with
  | nil => exact absurd h not_accepted
  | cons arg args ih =>
    unfold addCapabilities at h ⊢
    unfold namedCapabilities
    cases hcap : Γ.lookupCap arg with
    | none => rfl
    | some cap =>
      simp only [hcap] at h ⊢
      by_cases hvalid : cap > Γ.lastValidCap
      · rw [if_pos hvalid, if_pos hvalid]
        rfl
      · rw [if_neg hvalid] at h ⊢
        rw [if_neg hvalid]
        exact ih h

theorem parseCapabilities_refused (h : Refused (parseCapabilities Γ args s)) :
    (parseCapabilities Γ args s).2 = s ↔
      s.capabilities = some (if Γ.capAmbientSupported then namedCapabilities Γ args.tail 0 else 0) := by
  have hwritten : (parseCapabilities Γ args s).2 =
      { s with capabilities := some (if Γ.capAmbientSupported then namedCapabilities Γ args.tail 0 else 0) } := by
    unfold parseCapabilities at h ⊢
    cases hsupported : Γ.capAmbientSupported with
    | false => rfl
    | true =>
      simp only [hsupported, if_true] at h ⊢
      exact addCapabilities_refused h
  rw [hwritten]
  exact ⟨fun heq => (congrArg Service.capabilities heq).symm, fun heq => by rw [← heq]⟩

/-- The supplementary groups before the refused word are added. -/
theorem addSuppGids_refused {s : Service} (h : Refused (addSuppGids Γ args s)) :
    ∃ gids, (addSuppGids Γ args s).2 = { s with procAttr := { s.procAttr with suppGids := s.procAttr.suppGids ++ gids } } ∧
      (gids = [] ↔ (decodeUid Γ.getpwnam (args.headD "")).isOk = false) := by
  induction args generalizing s with
  | nil => exact absurd h not_accepted
  | cons w ws ih =>
    unfold addSuppGids at h ⊢
    cases hgid : decodeUid Γ.getpwnam w with
    | error e => exact ⟨[], by simp, by simp [hgid, Except.isOk, Except.toBool]⟩
    | ok gid =>
      rw [hgid] at h
      obtain ⟨gids, heq, -⟩ := ih h
      refine ⟨gid :: gids, ?_, by simp [hgid, Except.isOk, Except.toBool]⟩
      dsimp only
      rw [heq]
      simp

theorem parseGroup_refused (h : Refused (parseGroup Γ args s)) :
    (parseGroup Γ args s).2 = s ↔ ∀ gid, decodeUid Γ.getpwnam (args.getD 1 "") = .ok gid →
      s.procAttr.gid = gid ∧ (decodeUid Γ.getpwnam (args.getD 2 "")).isOk = false := by
  unfold parseGroup at h ⊢
  cases hgid : decodeUid Γ.getpwnam (args.getD 1 "") with
  | error e => exact ⟨fun _ gid hok => (by cases hok), fun _ => rfl⟩
  | ok gid =>
    rw [hgid] at h
    obtain ⟨gids, heq, hnone⟩ := addSuppGids_refused h
    have hword : (args.drop 2).headD "" = args.getD 2 "" := by
      rw [List.headD_eq_head?_getD, List.head?_drop, List.getD_eq_getElem?_getD]
    rw [hword] at hnone
    dsimp only
    rw [heq]
    constructor
    · intro hsame gid' hok
      have hattr := congrArg Service.procAttr hsame
      have hgids := congrArg ProcessAttributes.suppGids hattr
      have hgid' := congrArg ProcessAttributes.gid hattr
      cases hok
      exact ⟨hgid'.symm, hnone.1 (by simpa using hgids)⟩
    · intro hcond
      obtain ⟨hgid', hrefused⟩ := hcond gid rfl
      rw [hnone.2 hrefused, ← hgid']
      simp

theorem parsePriority_refused (h : Refused (parsePriority args s)) :
    (parsePriority args s).2 = s ↔ s.procAttr.priority = 0 := by
  have hwritten : (parsePriority args s).2 = { s with procAttr := { s.procAttr with priority := 0 } } := by
    unfold parsePriority intOption at h ⊢
    dsimp only at h ⊢
    cases hnum : parseInt (args.getD 1 "") androidPriorityHighest androidPriorityLowest with
    | none => rfl
    | some n =>
      rw [hnum] at h
      exact absurd h not_accepted
  rw [hwritten]
  refine ⟨fun heq => ?_, fun heq => by rw [← heq]⟩
  exact (congrArg (fun s => s.procAttr.priority) heq).symm

/-- A priority in the range is written, whatever the class is. -/
theorem parseIoprio_writes {pri : Int} (hpri : parseInt (args.getD 2 "") 0 7 = some pri) :
    (∃ c, parseIoprio args s = accept { s with procAttr := { s.procAttr with ioprioPri := pri, ioprioClass := c } }) ∨
      ∃ e, parseIoprio args s = refuse e { s with procAttr := { s.procAttr with ioprioPri := pri } } := by
  rw [parseIoprio, hpri]
  dsimp only
  split
  · exact .inl ⟨_, rfl⟩
  · exact .inl ⟨_, rfl⟩
  · exact .inl ⟨_, rfl⟩
  · exact .inr ⟨_, rfl⟩

theorem parseIoprio_refused (h : Refused (parseIoprio args s)) :
    (parseIoprio args s).2 = s ↔ ∀ pri, parseInt (args.getD 2 "") 0 7 = some pri → s.procAttr.ioprioPri = pri := by
  cases hpri : parseInt (args.getD 2 "") 0 7 with
  | none =>
    rw [parseIoprio, hpri]
    exact ⟨fun _ pri hsome => (by cases hsome), fun _ => rfl⟩
  | some pri =>
    rcases parseIoprio_writes (s := s) hpri with ⟨c, haccept⟩ | ⟨e, hrefuse⟩
    · exact absurd (haccept ▸ h) not_accepted
    · rw [hrefuse]
      refine ⟨fun heq pri' hsome => ?_, fun hcond => ?_⟩
      · cases hsome
        exact (congrArg (fun s => s.procAttr.ioprioPri) heq).symm
      · show { s with procAttr := { s.procAttr with ioprioPri := pri } } = s
        rw [← hcond pri rfl]

theorem insertKeycode_length (code : Int) (ks : List Int) : (insertKeycode code ks).length = ks.length + 1 := by
  induction ks with
  | nil => rfl
  | cons k ks ih =>
    unfold insertKeycode
    split
    · rfl
    · simp [ih]

/-- The codes before the refused word are added; there are none when the first is refused. -/
theorem addKeycodes_refused {words : List String} {s : Service} (h : Refused (addKeycodes words s)) :
    ∃ keycodes, (addKeycodes words s).2 = { s with keycodes } ∧ s.keycodes.length ≤ keycodes.length ∧
      (keycodes = s.keycodes ↔ ∀ word ∈ words.head?, ∀ code, parseInt word 0 keyMax = some code → code ∈ s.keycodes) := by
  induction words generalizing s with
  | nil => exact absurd h not_accepted
  | cons w ws ih =>
    unfold addKeycodes at h ⊢
    simp only [List.head?_cons, Option.mem_def, Option.some.injEq, forall_eq']
    cases hcode : parseInt w 0 keyMax with
    | none => exact ⟨s.keycodes, rfl, Nat.le_refl _, fun _ code hsome => (by cases hsome), fun _ => rfl⟩
    | some code =>
      rw [hcode] at h
      dsimp only at h ⊢
      by_cases hmem : code ∈ s.keycodes
      · rw [if_pos hmem]
        refine ⟨s.keycodes, rfl, Nat.le_refl _, fun _ code' hsome => ?_, fun _ => rfl⟩
        cases hsome
        exact hmem
      · rw [if_neg hmem] at h ⊢
        obtain ⟨keycodes, heq, hlen, -⟩ := ih h
        have hlonger := insertKeycode_length code s.keycodes
        dsimp only at hlen
        refine ⟨keycodes, heq, by omega, fun hsame => ?_, fun hcond => absurd (hcond code rfl) hmem⟩
        rw [hsame] at hlen
        omega

theorem parseKeycodes_refused (h : Refused (parseKeycodes E args s)) :
    (parseKeycodes E args s).2 = s ↔
      ∀ word ∈ (keycodeWords E args).head?, ∀ code, parseInt word 0 keyMax = some code → code ∈ s.keycodes := by
  have hwords : Refused (addKeycodes (keycodeWords E args) s) → ((addKeycodes (keycodeWords E args) s).2 = s ↔
      ∀ word ∈ (keycodeWords E args).head?, ∀ code, parseInt word 0 keyMax = some code → code ∈ s.keycodes) := by
    intro hrefused
    obtain ⟨keycodes, heq, -, hnone⟩ := addKeycodes_refused hrefused
    rw [heq, ← hnone]
    exact ⟨fun hsame => congrArg Service.keycodes hsame, fun hsame => by rw [hsame]⟩
  unfold keycodeWords at hwords ⊢
  unfold parseKeycodes at h ⊢
  split at h
  · rename_i hprop
    rw [if_pos hprop] at hwords ⊢
    rw [if_pos hprop]
    cases hexpanded : expandProps E.ctx.vendorApi E.prop (args.getD 1 "") with
    | error e => simp
    | ok expanded =>
      rw [hexpanded] at h hwords
      dsimp only at h hwords ⊢
      by_cases hnone : expanded = "none"
      · rw [if_pos hnone] at h
        exact absurd h not_accepted
      · rw [if_neg hnone] at h ⊢
        exact hwords h
  · rename_i hprop
    rw [if_neg hprop] at hwords ⊢
    rw [if_neg hprop]
    exact hwords h

/-- The flags of the words before the refused one are set. -/
theorem addNamespaces_refused {words : List String} {s : Service} (h : Refused (addNamespaces words s)) :
    (addNamespaces words s).2 = { s with namespaces := { s.namespaces with
      newPid := s.namespaces.newPid || (words.takeWhile (fun w => w = "pid" ∨ w = "mnt")).contains "pid"
      newNs := s.namespaces.newNs || !(words.takeWhile (fun w => w = "pid" ∨ w = "mnt")).isEmpty } } := by
  fun_induction addNamespaces words s with
  | case1 s => exact absurd h not_accepted
  | case2 ws s ih =>
    rw [ih h]
    simp
  | case3 ws s ih =>
    rw [ih h]
    simp
  | case4 w ws s hpid hmnt =>
    have hstop : List.takeWhile (fun w => decide (w = "pid" ∨ w = "mnt")) (w :: ws) = [] :=
      List.takeWhile_cons_of_neg (by simpa using ⟨hpid, hmnt⟩)
    rw [hstop]
    simp [refuse]

theorem parseNamespace_refused {words : List String} (h : Refused (addNamespaces words s)) :
    (addNamespaces words s).2 = s ↔
      (words.takeWhile (fun w => w = "pid" ∨ w = "mnt") ≠ [] → s.namespaces.newNs = true) ∧
        ("pid" ∈ words.takeWhile (fun w => w = "pid" ∨ w = "mnt") → s.namespaces.newPid = true) := by
  rw [addNamespaces_refused h]
  generalize words.takeWhile (fun w => decide (w = "pid" ∨ w = "mnt")) = taken
  constructor
  · intro hsame
    have hns := congrArg (fun s => s.namespaces.newNs) hsame
    have hpid := congrArg (fun s => s.namespaces.newPid) hsame
    dsimp only at hns hpid
    refine ⟨fun hne => ?_, fun hmem => ?_⟩
    · rw [← hns]
      simp [hne]
    · rw [← hpid]
      simp [hmem]
  · rintro ⟨hns, hpid⟩
    have hns' : (s.namespaces.newNs || !taken.isEmpty) = s.namespaces.newNs := by
      cases taken with
      | nil => simp
      | cons w ws => simp [hns]
    have hpid' : (s.namespaces.newPid || taken.contains "pid") = s.namespaces.newPid := by
      by_cases hmem : "pid" ∈ taken
      · simp [hpid hmem]
      · simp [hmem]
    rw [hns', hpid']

/-! The options that check before they write -/

/-- An option that leaves the service alone where it refuses. -/
def Checks (s : Service) (r : OptionResult) : Prop := Refused r → r.2 = s

theorem accept_checks {s s' : Service} : Checks s (accept s') := fun h => absurd h not_accepted

theorem refuse_checks {message : String} {s : Service} : Checks s (refuse message s) := fun _ => rfl

theorem error_checks {e : ResultError} {s : Service} : Checks s (.error e, s) := fun _ => rfl

theorem ite_checks {c : Prop} [Decidable c] {a b : OptionResult} (ha : Checks s a) (hb : Checks s b) :
    Checks s (if c then a else b) := by
  split
  · exact ha
  · exact hb

theorem intOption_checks (lo hi : Int) (message : String) (store : Int → Service) :
    Checks s (intOption args lo hi message store s) := by
  unfold intOption
  split
  · exact accept_checks
  · exact refuse_checks

theorem parseInterface_checks : Checks s (parseInterface E args s) := by
  unfold parseInterface
  dsimp only
  split
  · exact refuse_checks
  · split
    · exact refuse_checks
    · exact accept_checks

theorem parseSocket_checks : Checks s (parseSocket Γ args s) := by
  unfold parseSocket
  split
  · exact error_checks
  · exact ite_checks refuse_checks accept_checks

theorem parseFile_checks : Checks s (parseFile E args s) := by
  unfold parseFile
  refine ite_checks refuse_checks ?_
  split
  · exact error_checks
  · exact ite_checks refuse_checks (ite_checks refuse_checks accept_checks)

theorem parseCritical_checks : Checks s (parseCritical E args s) := by
  unfold parseCritical
  split
  · exact error_checks
  · exact accept_checks
  · exact accept_checks

/-- An option that refuses its line leaves the service as it was just when it wrote what was there. -/
theorem parseOption_refused {option : ServiceOption} (h : Refused (parseOption E args s option)) :
    (parseOption E args s option).2 = s ↔ WritesWhatIsThere E args s option := by
  have hchecks : Checks s (parseOption E args s option) → ((parseOption E args s option).2 = s ↔ True) :=
    fun hc => iff_true_intro (hc h)
  cases option with
  | capabilities => exact parseCapabilities_refused h
  | group => exact parseGroup_refused h
  | ioprio => exact parseIoprio_refused h
  | keycodes => exact parseKeycodes_refused h
  | «namespace» => exact parseNamespace_refused h
  | priority => exact parsePriority_refused h
  | «class» => exact hchecks accept_checks
  | console => exact hchecks (ite_checks refuse_checks accept_checks)
  | critical => exact hchecks parseCritical_checks
  | disabled => exact hchecks accept_checks
  | enterNamespace => exact hchecks (ite_checks refuse_checks (ite_checks refuse_checks accept_checks))
  | file => exact hchecks parseFile_checks
  | interface => exact hchecks parseInterface_checks
  | memcgLimitInBytes => exact hchecks (intOption_checks _ _ _ _)
  | memcgLimitPercent => exact hchecks (intOption_checks _ _ _ _)
  | memcgLimitProperty => exact hchecks accept_checks
  | memcgSoftLimitInBytes => exact hchecks (intOption_checks _ _ _ _)
  | memcgSwappiness => exact hchecks (intOption_checks _ _ _ _)
  | oneshot => exact hchecks accept_checks
  | onrestart =>
    refine hchecks ?_
    simp only [parseOption, parseOnrestart]
    split
    · exact error_checks
    · exact accept_checks
  | oomScoreAdjust => exact hchecks (intOption_checks _ _ _ _)
  | override => exact hchecks accept_checks
  | rebootOnFailure =>
    exact hchecks (ite_checks accept_checks (ite_checks refuse_checks (ite_checks refuse_checks accept_checks)))
  | restartPeriod => exact hchecks (intOption_checks _ _ _ _)
  | rlimit =>
    refine hchecks ?_
    simp only [parseOption, parseProcessRlimit]
    split
    · exact error_checks
    · exact accept_checks
  | seclabel => exact hchecks accept_checks
  | setenv => exact hchecks accept_checks
  | shutdown => exact hchecks (ite_checks accept_checks refuse_checks)
  | sigstop => exact hchecks accept_checks
  | socket => exact hchecks parseSocket_checks
  | stdioToKmsg => exact hchecks (ite_checks refuse_checks accept_checks)
  | taskProfiles => exact hchecks accept_checks
  | timeoutPeriod => exact hchecks (intOption_checks _ _ _ _)
  | updatable => exact hchecks accept_checks
  | user =>
    refine hchecks ?_
    simp only [parseOption, parseUser]
    split
    · exact error_checks
    · exact accept_checks
  | writepid => exact hchecks accept_checks

end FailedOptionsAux

open FailedOptionsAux ServiceParser

/-- A line of a service section that fails leaves the service as it was just when its keyword is none of the six options that
write as they read, or what was written before the refusal was there already. -/
theorem failed_option_unchanged_iff (E : OptionEnv) (args : List String) (s : Service) (e : ResultError)
    (hfailed : (parseOptionLine E args s).1 = .error e) :
    (parseOptionLine E args s).2 = s ↔
      ∀ option, serviceParserMap.find args = .ok option → WritesWhatIsThere E args s option := by
  unfold parseOptionLine at hfailed ⊢
  cases hfind : serviceParserMap.find args with
  | error e => exact ⟨fun _ option hok => (by cases hok), fun _ => rfl⟩
  | ok option =>
    rw [hfind] at hfailed
    dsimp only at hfailed ⊢
    have hrefused : Refused (parseOption E args s option) := by
      rw [Refused, hfailed]
      rfl
    rw [parseOption_refused hrefused]
    refine ⟨fun h option' hok => ?_, fun h => h option rfl⟩
    cases hok
    exact h

/-- A device where no user is known by name. -/
def plainEnv : OptionEnv := ⟨{}, [], fun _ => ""⟩

/-- A service under construction. -/
def bareService : Service := { name := "s", args := ["/bin/s"] }

theorem failed_option_unchanged_iff_sample :
    (parseOptionLine plainEnv ["group", "1000", "1001", "nobody"] bareService).2 = bareService ↔
      ∀ option, serviceParserMap.find ["group", "1000", "1001", "nobody"] = .ok option →
        WritesWhatIsThere plainEnv ["group", "1000", "1001", "nobody"] bareService option :=
  failed_option_unchanged_iff plainEnv ["group", "1000", "1001", "nobody"] bareService
    ⟨"Unable to decode GID for 'nobody': getpwnam failed", enoent⟩ (by decide)

/-- A `group` line whose last group is unknown leaves the groups before it. -/
theorem group_half_applied :
    ¬∀ (E : OptionEnv) (args : List String) (s : Service) (e : ResultError),
      (parseOptionLine E args s).1 = .error e → (parseOptionLine E args s).2 = s := by
  intro h
  have hsame := h plainEnv ["group", "1000", "1001", "nobody"] bareService
    ⟨"Unable to decode GID for 'nobody': getpwnam failed", enoent⟩ (by decide)
  have hgid := congrArg (fun s => s.procAttr.gid) hsame
  have hwritten : (parseOptionLine plainEnv ["group", "1000", "1001", "nobody"] bareService).2.procAttr.gid = 1000 := by decide
  rw [hwritten] at hgid
  cases hgid

end Innit
