import Innit.ServiceParser

/-!
# What the options write

An option changes the service under construction by a few writes. What the results are about is on two sides of the service: what
its process goes by, and the numbers that sums and products are made of. Most writes touch neither side; the others are listed,
each with what the parser has checked before (`OptionRule`). The sockets and files are a third side, which two options write
(`WriteRule`).
-/

namespace Innit

/-- The numbers that the options store. -/
def Service.numbers (s : Service) : (Nat × Option Nat × Nat) × (Int × Int) :=
  ((s.restartPeriod, s.timeoutPeriod, s.fatalCrashWindow), (s.limitInBytes, s.limitPercent))

/-- The sockets and files that the options store. -/
def Service.descriptorSide (s : Service) : List SocketDescriptor × List FileDescriptor := (s.sockets, s.files)

namespace ParsingAux

/-- The members an option may not touch, but for `reboot_on_failure` and `interface`. -/
def processSide (s : Service) : (String × Nat × Nat) × (Bool × Bool × Bool × Bool) × Option String × List String :=
  ((s.name, s.pid, s.startOrder), (s.flags.running, s.flags.restarting, s.flags.exec, s.flags.temporary), s.onFailureRebootTarget,
    s.interfaces)

end ParsingAux

open ServiceParser ParsingAux

/-- A relation of the service before and after that the writes of the options have. -/
structure OptionRule (E : OptionEnv) (R : Service → Service → Prop) : Prop where
  trans : ∀ {s₁ s₂ s₃}, R s₁ s₂ → R s₂ s₃ → R s₁ s₃
  other : ∀ {s s'}, processSide s' = processSide s → s'.numbers = s.numbers → R s s'
  restartPeriod : ∀ s {word n}, parseInt word 5 intMax = some n → R s { s with restartPeriod := n.toNat * second }
  timeoutPeriod : ∀ s {word n}, parseInt word 1 intMax = some n → R s { s with timeoutPeriod := some (n.toNat * second) }
  limitInBytes : ∀ s {word n}, parseInt word 0 intMax = some n → R s { s with limitInBytes := n }
  limitPercent : ∀ s {word n}, parseInt word 0 intMax = some n → R s { s with limitPercent := n }
  critical : ∀ s {args target window}, criticalArgs E.ctx E.prop args none none = .ok (.values target window) →
    R s { s with fatalRebootTarget := target.orElse (fun _ => s.fatalRebootTarget)
                 fatalCrashWindow := window.getD s.fatalCrashWindow
                 flags := s.flags.set .critical }
  interface : ∀ s {name}, (∀ t ∈ E.services, name ∉ t.interfaces) →
    R s { s with interfaces := if s.interfaces.contains name then s.interfaces else s.interfaces ++ [name] }
  rebootOnFailure : ∀ s target, ¬(failureAction E.ctx.policy s.name).any (· ≠ .reboot) = true →
    R s { s with onFailureRebootTarget := some target }

/-- Such a relation for all options but `socket` and `file`. -/
structure WriteRule (E : OptionEnv) (R : Service → Service → Prop) : Prop where
  trans : ∀ {s₁ s₂ s₃}, R s₁ s₂ → R s₂ s₃ → R s₁ s₃
  other : ∀ {s s'}, processSide s' = processSide s → s'.numbers = s.numbers → s'.descriptorSide = s.descriptorSide → R s s'
  restartPeriod : ∀ s {word n}, parseInt word 5 intMax = some n → R s { s with restartPeriod := n.toNat * second }
  timeoutPeriod : ∀ s {word n}, parseInt word 1 intMax = some n → R s { s with timeoutPeriod := some (n.toNat * second) }
  limitInBytes : ∀ s {word n}, parseInt word 0 intMax = some n → R s { s with limitInBytes := n }
  limitPercent : ∀ s {word n}, parseInt word 0 intMax = some n → R s { s with limitPercent := n }
  critical : ∀ s {args target window}, criticalArgs E.ctx E.prop args none none = .ok (.values target window) →
    R s { s with fatalRebootTarget := target.orElse (fun _ => s.fatalRebootTarget)
                 fatalCrashWindow := window.getD s.fatalCrashWindow
                 flags := s.flags.set .critical }
  interface : ∀ s {name}, (∀ t ∈ E.services, name ∉ t.interfaces) →
    R s { s with interfaces := if s.interfaces.contains name then s.interfaces else s.interfaces ++ [name] }
  rebootOnFailure : ∀ s target, ¬(failureAction E.ctx.policy s.name).any (· ≠ .reboot) = true →
    R s { s with onFailureRebootTarget := some target }

namespace WriteRule

variable {E : OptionEnv} {R : Service → Service → Prop}

/-- Nothing is written. -/
theorem refl (h : WriteRule E R) (s : Service) : R s s := h.other rfl rfl rfl

/-- An option that tests one thing, and writes or not. -/
theorem ite {c : Prop} [Decidable c] {a b : OptionResult} {s : Service} (ha : R s a.2) (hb : R s b.2) : R s (if c then a else b).2 := by
  split
  · exact ha
  · exact hb

/-- An option that is one integer. -/
theorem intOption {args : List String} {lo hi : Int} {message : String} {store : Int → Service} {s₀ s : Service} (hs : R s₀ s)
    (hstore : ∀ n, parseInt (args.getD 1 "") lo hi = some n → R s₀ (store n)) :
    R s₀ (ServiceParser.intOption args lo hi message store s).2 := by
  unfold ServiceParser.intOption
  split
  · next n hn => exact hstore n hn
  · exact hs

/-- The capabilities are written one after the other. -/
theorem addCapabilities (h : WriteRule E R) (s : Service) (args : List String) (caps : Nat) :
    R s (addCapabilities E.ctx s args caps).2 := by
  induction args generalizing caps with
  | nil => exact h.other rfl rfl rfl
  | cons arg args ih =>
    unfold ServiceParser.addCapabilities
    split
    · exact h.other rfl rfl rfl
    · exact ite (h.other rfl rfl rfl) (ih _)

/-- So are the supplementary groups. -/
theorem addSuppGids (h : WriteRule E R) (args : List String) (s : Service) : R s (addSuppGids E.ctx args s).2 := by
  induction args generalizing s with
  | nil => exact h.refl s
  | cons arg args ih =>
    unfold ServiceParser.addSuppGids
    split
    · exact h.refl s
    · refine h.trans ?_ (ih _)
      exact h.other rfl rfl rfl

/-- So are the keycodes. -/
theorem addKeycodes (h : WriteRule E R) (args : List String) (s : Service) : R s (addKeycodes args s).2 := by
  induction args generalizing s with
  | nil => exact h.refl s
  | cons arg args ih =>
    unfold ServiceParser.addKeycodes
    split
    · exact h.refl s
    · refine ite (h.refl s) (h.trans ?_ (ih _))
      exact h.other rfl rfl rfl

/-- So are the namespaces. -/
theorem addNamespaces (h : WriteRule E R) (args : List String) (s : Service) : R s (addNamespaces args s).2 := by
  fun_induction ServiceParser.addNamespaces args s with
  | case1 s => exact h.refl s
  | case2 s ws ih =>
    refine h.trans ?_ ih
    exact h.other rfl rfl rfl
  | case3 s ws ih =>
    refine h.trans ?_ ih
    exact h.other rfl rfl rfl
  | case4 w ws s => exact h.refl s

/-- What `critical` writes. -/
theorem parseCritical (h : WriteRule E R) (args : List String) (s : Service) : R s (parseCritical E args s).2 := by
  unfold ServiceParser.parseCritical
  split
  · exact h.refl s
  · exact h.refl s
  · next target window heq => exact h.critical s heq

/-- What `group` writes. -/
theorem parseGroup (h : WriteRule E R) (args : List String) (s : Service) : R s (parseGroup E.ctx args s).2 := by
  unfold ServiceParser.parseGroup
  split
  · exact h.refl s
  · refine h.trans ?_ (h.addSuppGids _ _)
    exact h.other rfl rfl rfl

/-- What `interface` writes. -/
theorem parseInterface (h : WriteRule E R) (args : List String) (s : Service) : R s (parseInterface E args s).2 := by
  unfold ServiceParser.parseInterface
  dsimp only
  split
  · exact h.refl s
  · split
    · exact h.refl s
    · next hnone =>
      exact h.interface s (fun t ht hit => List.find?_eq_none.1 hnone t ht (List.contains_iff_mem.2 hit))

/-- What `ioprio` writes. -/
theorem parseIoprio (h : WriteRule E R) (args : List String) (s : Service) : R s (parseIoprio args s).2 := by
  unfold ServiceParser.parseIoprio
  split
  · exact h.refl s
  · dsimp only
    split <;> exact h.other rfl rfl rfl

/-- What `keycodes` writes. -/
theorem parseKeycodes (h : WriteRule E R) (args : List String) (s : Service) : R s (parseKeycodes E args s).2 := by
  unfold ServiceParser.parseKeycodes
  split
  · split
    · exact h.refl s
    · exact ite (h.refl s) (h.addKeycodes _ s)
  · exact h.addKeycodes _ s

/-- What `reboot_on_failure` writes. -/
theorem parseRebootOnFailure (h : WriteRule E R) (args : List String) (s : Service) :
    R s (parseRebootOnFailure E.ctx args s).2 := by
  unfold ServiceParser.parseRebootOnFailure
  dsimp only
  split
  · exact h.refl s
  · next hany => exact ite (h.refl s) (ite (h.refl s) (h.rebootOnFailure s _ hany))

/-- Whatever a line says, its option does no more than these writes, and those of `socket` and `file`. -/
theorem parseOption (h : WriteRule E R) (args : List String) (s : Service) (option : ServiceOption)
    (hfile : option = .file → R s (parseFile E args s).2) (hsocket : option = .socket → R s (parseSocket E.ctx args s).2) :
    R s (parseOption E args s option).2 := by
  cases option with
  | capabilities => exact ite (h.addCapabilities s _ _) (h.other rfl rfl rfl)
  | «class» => exact h.other rfl rfl rfl
  | console => exact ite (h.refl s) (h.other rfl rfl rfl)
  | critical => exact h.parseCritical args s
  | disabled => exact h.other rfl rfl rfl
  | enterNamespace => exact ite (h.refl s) (ite (h.refl s) (h.other rfl rfl rfl))
  | file => exact hfile rfl
  | group => exact h.parseGroup args s
  | interface => exact h.parseInterface args s
  | ioprio => exact h.parseIoprio args s
  | keycodes => exact h.parseKeycodes args s
  | memcgLimitInBytes => exact intOption (h.refl s) (fun _ hn => h.limitInBytes s hn)
  | memcgLimitPercent => exact intOption (h.refl s) (fun _ hn => h.limitPercent s hn)
  | memcgLimitProperty => exact h.other rfl rfl rfl
  | memcgSoftLimitInBytes => exact intOption (h.refl s) (fun _ _ => h.other rfl rfl rfl)
  | memcgSwappiness => exact intOption (h.refl s) (fun _ _ => h.other rfl rfl rfl)
  | «namespace» => exact h.addNamespaces _ s
  | oneshot => exact h.other rfl rfl rfl
  | onrestart =>
    simp only [ServiceParser.parseOption, parseOnrestart]
    split
    · exact h.refl s
    · exact h.other rfl rfl rfl
  | oomScoreAdjust => exact intOption (h.refl s) (fun _ _ => h.other rfl rfl rfl)
  | override => exact h.other rfl rfl rfl
  | priority => exact intOption (h.other rfl rfl rfl) (fun _ _ => h.other rfl rfl rfl)
  | rebootOnFailure => exact h.parseRebootOnFailure args s
  | restartPeriod => exact intOption (h.refl s) (fun _ hn => h.restartPeriod s hn)
  | rlimit =>
    simp only [ServiceParser.parseOption, parseProcessRlimit]
    split
    · exact h.refl s
    · exact h.other rfl rfl rfl
  | seclabel => exact h.other rfl rfl rfl
  | setenv => exact h.other rfl rfl rfl
  | shutdown => exact ite (h.other rfl rfl rfl) (h.refl s)
  | sigstop => exact h.other rfl rfl rfl
  | socket => exact hsocket rfl
  | stdioToKmsg => exact ite (h.refl s) (h.other rfl rfl rfl)
  | taskProfiles => exact h.other rfl rfl rfl
  | timeoutPeriod => exact intOption (h.refl s) (fun _ hn => h.timeoutPeriod s hn)
  | updatable => exact h.other rfl rfl rfl
  | user =>
    simp only [ServiceParser.parseOption, parseUser]
    split
    · exact h.refl s
    · exact h.other rfl rfl rfl
  | writepid => exact h.other rfl rfl rfl

end WriteRule

namespace OptionRule

variable {E : OptionEnv} {R : Service → Service → Prop}

/-- A rule for options is one for writes. -/
theorem toWriteRule (h : OptionRule E R) : WriteRule E R where
  trans := h.trans
  other := fun hprocess hnumbers _ => h.other hprocess hnumbers
  restartPeriod := h.restartPeriod
  timeoutPeriod := h.timeoutPeriod
  limitInBytes := h.limitInBytes
  limitPercent := h.limitPercent
  critical := h.critical
  interface := h.interface
  rebootOnFailure := h.rebootOnFailure

/-- Nothing is written. -/
theorem refl (h : OptionRule E R) (s : Service) : R s s := h.other rfl rfl

/-- What `file` writes. -/
theorem parseFile (h : OptionRule E R) (args : List String) (s : Service) : R s (parseFile E args s).2 := by
  unfold ServiceParser.parseFile
  refine WriteRule.ite (h.refl s) ?_
  split
  · exact h.refl s
  · exact WriteRule.ite (h.refl s) (WriteRule.ite (h.refl s) (h.other rfl rfl))

/-- What `socket` writes. -/
theorem parseSocket (h : OptionRule E R) (args : List String) (s : Service) : R s (parseSocket E.ctx args s).2 := by
  unfold ServiceParser.parseSocket
  split
  · exact h.refl s
  · exact WriteRule.ite (h.refl s) (h.other rfl rfl)

/-- Whatever a line says, its option does no more than these writes. -/
theorem parseOption (h : OptionRule E R) (args : List String) (s : Service) (option : ServiceOption) :
    R s (parseOption E args s option).2 :=
  h.toWriteRule.parseOption args s option (fun _ => h.parseFile args s) (fun _ => h.parseSocket args s)

/-- What an option line writes. -/
theorem parseOptionLine (h : OptionRule E R) (args : List String) (s : Service) : R s (parseOptionLine E args s).2 := by
  unfold ServiceParser.parseOptionLine
  split
  · exact h.refl s
  · exact h.parseOption args s _

end OptionRule

end Innit
