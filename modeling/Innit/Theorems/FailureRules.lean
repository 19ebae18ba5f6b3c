import Mathlib.Data.List.Induction
import Innit.Theorems.PolicyMeaning

/-!
# The order of the failure rules

Rules for a named service are kept before those for every service, each in the order they were added in. So the lookup finds the
first rule for a name, or else the first for every service. The loader adds the rule of the root first, and then those of the file.
-/

namespace Innit

/-- A call of `AddFailureRule`. -/
abbrev FailureRuleCall := String × FailureAction

namespace InnitPolicy

/-- The calls, one after the other. -/
def addFailureRules (p : InnitPolicy) (calls : List FailureRuleCall) : InnitPolicy := calls.foldl (fun p c => p.addFailureRule c.1 c.2) p

/-- The calls for a named service, and those for every service. -/
def namedCalls (calls : List FailureRuleCall) : List FailureRuleCall := calls.filter (·.1 ≠ "*")
def wildcardCalls (calls : List FailureRuleCall) : List FailureRuleCall := calls.filter (·.1 = "*")

/-- The action of the first call for the name, else of the first for every service, else a reboot. -/
def actionOf (calls : List FailureRuleCall) (serviceName : String) : FailureAction :=
  (((calls.find? (·.1 = serviceName)).or (calls.find? (·.1 = "*"))).map (·.2)).getD .reboot

end InnitPolicy

namespace XMLElement

/-- The action of `rebootOnFailure`, of an element that is accepted. -/
def failureAction (e : XMLElement) : FailureAction :=
  match InnitPolicy.parseFailureActionStrict (e.attr "rebootOnFailure") with
  | .ok action => action
  | .error _ => .reboot

/-- The call for a `service` element. -/
def failureCall (e : XMLElement) : FailureRuleCall := (e.attr "name", e.failureAction)

/-- The call for the root, if it has the attribute. -/
def rootCalls (root : XMLElement) : List FailureRuleCall :=
  if root.attr "rebootOnFailure" = "" then [] else [("*", root.failureAction)]

/-- The calls for a section of the root. -/
def sectionCalls (s : XMLElement) : List FailureRuleCall := if s.name = "failure-policy" then s.children.map failureCall else []

end XMLElement

namespace FailureRulesAux

open InnitPolicy PolicyAux

/-- The rule of a call. -/
def ruleOfCall (c : FailureRuleCall) : ServiceFailureRule := ⟨c.1, c.2⟩

theorem addFailureRules_snoc (p : InnitPolicy) (calls : List FailureRuleCall) (c : FailureRuleCall) :
    p.addFailureRules (calls ++ [c]) = (p.addFailureRules calls).addFailureRule c.1 c.2 := by
  unfold addFailureRules
  rw [List.foldl_append]
  rfl

theorem mem_namedCalls {calls : List FailureRuleCall} {r : ServiceFailureRule} (h : r ∈ (namedCalls calls).map ruleOfCall) :
    r.namePattern ≠ "*" := by
  obtain ⟨c, hc, rfl⟩ := List.mem_map.1 h
  exact of_decide_eq_true (List.mem_filter.1 hc).2

theorem mem_wildcardCalls {calls : List FailureRuleCall} {r : ServiceFailureRule} (h : r ∈ (wildcardCalls calls).map ruleOfCall) :
    r.namePattern = "*" := by
  obtain ⟨c, hc, rfl⟩ := List.mem_map.1 h
  exact of_decide_eq_true (List.mem_filter.1 hc).2

/-- The boundary of the two kinds of rules is where the next named rule goes. -/
theorem boundary (calls : List FailureRuleCall) :
    ((namedCalls calls).map ruleOfCall ++ (wildcardCalls calls).map ruleOfCall).takeWhile (·.namePattern ≠ "*") =
        (namedCalls calls).map ruleOfCall ∧
      ((namedCalls calls).map ruleOfCall ++ (wildcardCalls calls).map ruleOfCall).dropWhile (·.namePattern ≠ "*") =
        (wildcardCalls calls).map ruleOfCall := by
  have hnamed : ∀ r ∈ (namedCalls calls).map ruleOfCall, decide (r.namePattern ≠ "*") = true :=
    fun r hr => decide_eq_true (mem_namedCalls hr)
  rw [List.takeWhile_append_of_pos hnamed, List.dropWhile_append_of_pos hnamed]
  cases hwild : (wildcardCalls calls).map ruleOfCall with
  | nil => simp
  | cons r rules =>
    have hr : r.namePattern = "*" := mem_wildcardCalls (hwild ▸ List.mem_cons_self)
    rw [List.takeWhile_cons_of_neg (by simp [hr]), List.dropWhile_cons_of_neg (by simp [hr]), List.append_nil]
    exact ⟨rfl, rfl⟩

/-- The rules are those of the calls, the named ones first. -/
theorem failureRules_addFailureRules (calls : List FailureRuleCall) :
    (({} : InnitPolicy).addFailureRules calls).failureRules =
      (namedCalls calls).map ruleOfCall ++ (wildcardCalls calls).map ruleOfCall := by
  induction calls using List.reverseRecOn with
  | nil => rfl
  | append_singleton calls c ih =>
    rw [addFailureRules_snoc]
    unfold addFailureRule
    by_cases hc : c.1 = "*"
    · have hnamed : namedCalls (calls ++ [c]) = namedCalls calls := by simp [namedCalls, hc]
      have hwild : wildcardCalls (calls ++ [c]) = wildcardCalls calls ++ [c] := by simp [wildcardCalls, hc]
      rw [if_pos hc, hnamed, hwild]
      dsimp only
      rw [ih, List.map_append, List.append_assoc]
      rfl
    · have hnamed : namedCalls (calls ++ [c]) = namedCalls calls ++ [c] := by simp [namedCalls, hc]
      have hwild : wildcardCalls (calls ++ [c]) = wildcardCalls calls := by simp [wildcardCalls, hc]
      obtain ⟨htake, hdrop⟩ := boundary calls
      rw [if_neg hc, hnamed, hwild]
      dsimp only
      rw [ih, htake, hdrop, List.map_append, List.append_assoc]
      rfl

/-- The first rule with a name is that of the first call with it. -/
theorem find?_failureRules (calls : List FailureRuleCall) (n : String) :
    (({} : InnitPolicy).addFailureRules calls).failureRules.find? (·.namePattern = n) = (calls.find? (·.1 = n)).map ruleOfCall := by
  have hcall : ∀ cs : List FailureRuleCall, (cs.map ruleOfCall).find? (·.namePattern = n) = (cs.find? (·.1 = n)).map ruleOfCall :=
    fun cs => List.find?_map
  rw [failureRules_addFailureRules, List.find?_append, hcall, hcall]
  unfold namedCalls wildcardCalls
  rw [List.find?_filter, List.find?_filter]
  by_cases hn : n = "*"
  · subst hn
    have hnamed : calls.find? (fun c => decide (decide (c.1 ≠ "*") = true ∧ decide (c.1 = "*") = true)) = none := by simp
    rw [hnamed]
    simp
  · have hwild : calls.find? (fun c => decide (decide (c.1 = "*") = true ∧ decide (c.1 = n) = true)) = none := by
      rw [List.find?_eq_none]
      rintro c - h
      simp only [decide_eq_true_eq] at h
      exact hn (h.2.symm.trans h.1)
    have hnamed : (fun c : FailureRuleCall => decide (decide (c.1 ≠ "*") = true ∧ decide (c.1 = n) = true)) =
        fun c => decide (c.1 = n) := by
      funext c
      by_cases hc : c.1 = n
      · simp [hc, hn]
      · simp [hc]
    rw [hwild, hnamed]
    simp

/-! ## The calls of the loader -/

/-- The rules after some calls depend only on the rules before them. -/
theorem addFailureRules_congr {p q : InnitPolicy} (h : p.failureRules = q.failureRules) (calls : List FailureRuleCall) :
    (p.addFailureRules calls).failureRules = (q.addFailureRules calls).failureRules := by
  induction calls generalizing p q with
  | nil => exact h
  | cons c calls ih =>
    refine ih (p := p.addFailureRule c.1 c.2) (q := q.addFailureRule c.1 c.2) ?_
    unfold addFailureRule
    split <;> simp [h]

theorem addFailureRules_append (p : InnitPolicy) (calls more : List FailureRuleCall) :
    p.addFailureRules (calls ++ more) = (p.addFailureRules calls).addFailureRules more := List.foldl_append

theorem parseFailurePolicy_calls {es : List XMLElement} {p q : InnitPolicy} (h : parseFailurePolicy es p = .ok q) :
    q = p.addFailureRules (es.map XMLElement.failureCall) := by
  induction es generalizing p with
  | nil =>
    cases h
    rfl
  | cons e es ih =>
    unfold parseFailurePolicy at h
    split at h
    · cases h
    split at h
    · cases h
    next name hname =>
    split at h
    · cases h
    next word hword =>
    split at h
    · cases h
    next action haction =>
    have hcall : e.failureCall = (name, action) := by
      unfold XMLElement.failureCall XMLElement.failureAction
      rw [((requiredAttr_ok_iff e _ _).1 hname).2, ((requiredAttr_ok_iff e _ _).1 hword).2, haction]
    rw [ih h, List.map_cons, hcall]
    rfl

theorem parseCommandPolicy_failureRules {es : List XMLElement} {p q : InnitPolicy} (h : parseCommandPolicy es p = .ok q) :
    q.failureRules = p.failureRules := by
  induction es generalizing p with
  | nil =>
    cases h
    rfl
  | cons e es ih =>
    unfold parseCommandPolicy at h
    split at h
    · cases h
    split at h
    · cases h
    split at h
    · exact (ih h).trans rfl
    · exact (ih h).trans rfl

/-- A part of the policy without failure rules is replaced. -/
theorem map_failureRules {α : Type} {r : Result α} {f : α → InnitPolicy} {p q : InnitPolicy} (h : r.map f = .ok q)
    (hf : ∀ a, (f a).failureRules = p.failureRules) : q.failureRules = p.failureRules := by
  cases r with
  | error e => cases h
  | ok a =>
    cases h
    exact hf a

/-- The calls of a section of the root. -/
theorem parseSection_calls {s : XMLElement} {p q : InnitPolicy} (h : parseSection s p = .ok q) :
    q.failureRules = (p.addFailureRules (s.sectionCalls)).failureRules := by
  unfold XMLElement.sectionCalls
  by_cases hfailure : s.name = "failure-policy"
  · have hparse : parseFailurePolicy s.children p = .ok q := by
      unfold parseSection at h
      simpa [hfailure] using h
    rw [if_pos hfailure, parseFailurePolicy_calls hparse]
  · rw [if_neg hfailure]
    change q.failureRules = p.failureRules
    unfold parseSection at h
    split_ifs at h
    · cases h
      rfl
    · exact map_failureRules h (fun _ => rfl)
    · exact map_failureRules h (fun _ => rfl)
    · exact map_failureRules h (fun _ => rfl)
    · exact map_failureRules h (fun _ => rfl)
    · exact parseCommandPolicy_failureRules h
    · exact map_failureRules h (fun _ => rfl)

theorem parseSections_calls {ss : List XMLElement} {p q : InnitPolicy} (h : parseSections ss p = .ok q) :
    q.failureRules = (p.addFailureRules (ss.flatMap XMLElement.sectionCalls)).failureRules := by
  induction ss generalizing p with
  | nil =>
    cases h
    rfl
  | cons s ss ih =>
    unfold parseSections at h
    split at h
    · cases h
    next p₁ hsection =>
    rw [ih h, List.flatMap_cons, addFailureRules_append]
    exact addFailureRules_congr (parseSection_calls hsection) _

theorem parseRoot_calls {root : XMLElement} {p : InnitPolicy} (h : parseRoot root = .ok p) :
    p.failureRules = (({} : InnitPolicy).addFailureRules root.rootCalls).failureRules := by
  unfold parseRoot at h
  simp only [bind_ok_iff] at h
  obtain ⟨-, -, p₁, hdefaults, p₂, hroot, hselinux⟩ := h
  have hnone : p₁.failureRules = [] := by
    unfold parseDefaults at hdefaults
    simp only [bind_ok_iff] at hdefaults
    obtain ⟨rc, -, sv, -, ex, -, ev, -, hp⟩ := hdefaults
    cases hp
    rfl
  have hsame : p.failureRules = p₂.failureRules := by
    unfold parseSelinuxMode at hselinux
    split_ifs at hselinux
    all_goals
      cases hselinux
      rfl
  rw [hsame]
  unfold parseRootFailure at hroot
  unfold XMLElement.rootCalls
  split at hroot
  · next hempty =>
    cases hroot
    rw [if_pos hempty]
    exact hnone
  · next hword =>
    rw [if_neg hword]
    cases haction : parseFailureActionStrict (root.attr "rebootOnFailure") with
    | error e =>
      rw [haction] at hroot
      cases hroot
    | ok action =>
      rw [haction] at hroot
      cases hroot
      have hcall : root.failureAction = action := by
        unfold XMLElement.failureAction
        rw [haction]
      rw [hcall]
      exact addFailureRules_congr (q := {}) hnone [("*", action)]

/-- The failure rules of a policy file are those of its calls: that of the root first, if it has one, and then those of its sections in
the order of the file. -/
theorem loaded_failureRules {path : String} {root : XMLElement} {p : InnitPolicy}
    (h : InnitPolicy.loadFromFile path (.ok (some root)) = .ok p) :
    p.failureRules =
      (({} : InnitPolicy).addFailureRules (root.rootCalls ++ root.children.flatMap XMLElement.sectionCalls)).failureRules := by
  simp only [InnitPolicy.loadFromFile] at h
  split_ifs at h
  simp only [bind_ok_iff] at h
  obtain ⟨p₁, hroot, p₂, hsections, hp⟩ := h
  cases hp
  rw [addFailureRules_append]
  exact (parseSections_calls hsections).trans (addFailureRules_congr (parseRoot_calls hroot) _)

/-- The action of a service is that of the first call for its name, else of the first for every service, else a reboot. -/
theorem getFailureAction_addFailureRules (calls : List FailureRuleCall) (serviceName : String) :
    (({} : InnitPolicy).addFailureRules calls).getFailureAction serviceName = actionOf calls serviceName := by
  unfold getFailureAction actionOf
  rw [find?_failureRules, find?_failureRules]
  cases calls.find? (·.1 = serviceName) with
  | some c => rfl
  | none => cases calls.find? (·.1 = "*") <;> rfl

/-- The action of a service depends on the failure rules alone. -/
theorem getFailureAction_congr {p q : InnitPolicy} (h : p.failureRules = q.failureRules) (serviceName : String) :
    p.getFailureAction serviceName = q.getFailureAction serviceName := by
  unfold getFailureAction
  rw [h]

end FailureRulesAux

open FailureRulesAux

/-- After any calls of `AddFailureRule`, the rules for named services stand first, and then those for every service, each in the order
of the calls; and the action of a service is that of the first call for its name, else of the first for every service, else a reboot.
A policy that is loaded has the rules and the actions of its calls: that of the root first, if it has the attribute, and then those of
the sections in the order of the file. -/
theorem failureRules_precedence :
    (∀ calls, (({} : InnitPolicy).addFailureRules calls).failureRules =
        (InnitPolicy.namedCalls calls ++ InnitPolicy.wildcardCalls calls).map (fun c => ⟨c.1, c.2⟩) ∧
      ∀ serviceName, (({} : InnitPolicy).addFailureRules calls).getFailureAction serviceName =
        InnitPolicy.actionOf calls serviceName) ∧
    ∀ path root p, InnitPolicy.loadFromFile path (.ok (some root)) = .ok p →
      p.failureRules =
        (({} : InnitPolicy).addFailureRules (root.rootCalls ++ root.children.flatMap XMLElement.sectionCalls)).failureRules ∧
      ∀ serviceName, p.getFailureAction serviceName =
        InnitPolicy.actionOf (root.rootCalls ++ root.children.flatMap XMLElement.sectionCalls) serviceName := by
  refine ⟨fun calls => ⟨?_, getFailureAction_addFailureRules calls⟩,
    fun path root p h => ⟨loaded_failureRules h, fun serviceName => ?_⟩⟩
  · rw [failureRules_addFailureRules, List.map_append]
    rfl
  · rw [getFailureAction_congr (loaded_failureRules h), getFailureAction_addFailureRules]

/-- A file whose root asks for a restart, with a rule for `vold` after it. -/
def failureDocument : XMLElement :=
  .mk "innit" [("version", "1"), ("rebootOnFailure", "restart")]
    [.mk "failure-policy" [] [.mk "service" [("name", "vold"), ("rebootOnFailure", "log")] []]]

/-- The rule for `vold` stands before that of the root. -/
theorem failureRules_precedence_sample :
    ∃ p, InnitPolicy.loadFromFile "innit.xml" (.ok (some failureDocument)) = .ok p ∧
      p.getFailureAction "vold" = .log ∧ p.getFailureAction "adbd" = .restart := by
  have hm := failureRules_precedence.2 "innit.xml" failureDocument
  refine ⟨_, rfl, ?_, ?_⟩
  · rw [(hm _ rfl).2]
    decide
  · rw [(hm _ rfl).2]
    decide

end Innit
