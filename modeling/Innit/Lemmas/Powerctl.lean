import Innit.Reboot

/-!
# What a power control message comes to

A message is refused (it is not recognised, or the bootloader message cannot be written), asks for a userspace reboot, or puts
init into shutdown. Which of these it is depends on its text and on the device alone.
-/

namespace Innit

/-- What a message comes to. -/
inductive PowerctlKind where
  | refused | userspace | shutdown
deriving DecidableEq, Repr

/-- What a message comes to on a device. -/
def powerctlKind (E : PowerEnv) (command : String) : PowerctlKind :=
  match cmdParams command with
  | [] => .refused
  | word :: params =>
    if word = "shutdown" then .shutdown
    else if word = "reboot" then match params with
      | [] => .shutdown
      | target :: _ =>
        if target = "userspace" then .userspace
        else if (PowerState.prepareTarget E target {}).1.isSome then .shutdown
        else .refused
    else .refused

namespace PowerctlAux

open PowerState

/-- The target to go on with does not depend on the state, of which only the calls on the device change. -/
theorem prepareTarget_cases (E : PowerEnv) (target : String) (p : PowerState) :
    (p.prepareTarget E target).1 = (prepareTarget E target {}).1 ∧
      ∃ calls, (p.prepareTarget E target).2 = { p with calls := calls } := by
  unfold prepareTarget
  dsimp only
  generalize (if target = "fastboot" && !E.dynamicPartitions then "bootloader" else target) = target
  split
  · exact ⟨rfl, _, rfl⟩
  · split
    · split
      · exact ⟨rfl, _, rfl⟩
      · exact ⟨rfl, _, rfl⟩
    · split
      · exact ⟨rfl, _, rfl⟩
      · exact ⟨rfl, _, rfl⟩

/-- What `HandlePowerctlMessage` does, by what the message comes to. -/
theorem handlePowerctlMessage_cases (E : PowerEnv) (command : String) (p : PowerState) :
    (powerctlKind E command = .refused ∧ ∃ calls, p.handlePowerctlMessage E command = { p with calls := calls }) ∨
      (powerctlKind E command = .userspace ∧
        p.handlePowerctlMessage E command = p.stopSendingMessages.handleUserspaceReboot E) ∨
      (powerctlKind E command = .shutdown ∧
        ∃ calls args, p.handlePowerctlMessage E command = { p with calls := calls }.startShutdown E args) := by
  unfold powerctlKind handlePowerctlMessage
  rcases cmdParams command with _ | ⟨word, params⟩
  · exact .inl ⟨rfl, p.calls, rfl⟩
  dsimp only
  by_cases hshutdown : word = "shutdown"
  · simp only [if_pos hshutdown]
    refine .inr (.inr ⟨trivial, ?_⟩)
    split
    · exact ⟨p.calls, _, rfl⟩
    · split
      · exact ⟨_, _, rfl⟩
      · exact ⟨p.calls, _, rfl⟩
  simp only [if_neg hshutdown]
  by_cases hreboot : word = "reboot"
  · simp only [if_pos hreboot]
    rcases params with _ | ⟨target, params⟩
    · exact .inr (.inr ⟨rfl, p.calls, _, rfl⟩)
    dsimp only
    by_cases huserspace : target = "userspace"
    · simp only [if_pos huserspace]
      exact .inr (.inl ⟨trivial, trivial⟩)
    · simp only [if_neg huserspace]
      obtain ⟨htarget, calls, hcalls⟩ := prepareTarget_cases E target p
      rw [← htarget]
      cases hprepared : p.prepareTarget E target with
      | mk prepared p' =>
        rw [hprepared] at hcalls
        cases prepared with
        | none => exact .inl ⟨rfl, calls, hcalls⟩
        | some target' =>
          refine .inr (.inr ⟨rfl, calls, ⟨.restart2, command, addParams target' params, false⟩, ?_⟩)
          rw [← show p' = _ from hcalls]
  · simp only [if_neg hreboot]
    exact .inl ⟨trivial, p.calls, rfl⟩

end PowerctlAux

end Innit
