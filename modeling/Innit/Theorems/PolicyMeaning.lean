import Innit.PolicyLoad

/-!
# What a policy file means

The policy language, apart from the loader: the grammar of the documents (`Grammar`), and the decision a document takes on a
subject (`XMLElement.decision`: the first allow or deny element in document order, over all sections of the kind, whose pattern
matches, else the default attribute, else deny). The loader accepts exactly the grammar, and the gates of the policy it builds
take the document's decisions.
-/

namespace Innit

/-- The four kinds of subjects a document decides on with allow and deny rules. -/
inductive RuleKind where
  | rc
  | event
  | service
  | exec
deriving DecidableEq, Repr

namespace RuleKind

/-- The tag of the sections of the kind. -/
def tag : RuleKind → String
  | rc => "rc-policy"
  | event => "event-policy"
  | service => "service-policy"
  | exec => "exec-policy"

/-- The attribute that holds the pattern of a rule of the kind. -/
def attr : RuleKind → String
  | rc => "path"
  | event => "name"
  | service => "name"
  | exec => "path"

/-- The root attribute that holds the default of the kind. -/
def defaultAttr : RuleKind → String
  | rc => "defaultRc"
  | event => "defaultEvent"
  | service => "defaultService"
  | exec => "defaultExec"

end RuleKind

/-- The rules of a kind. -/
def InnitPolicy.rules (p : InnitPolicy) : RuleKind → List PolicyRule
  | .rc => p.rcRules
  | .event => p.eventRules
  | .service => p.serviceRules
  | .exec => p.execRules

/-- The default of a kind. -/
def InnitPolicy.defaultOf (p : InnitPolicy) : RuleKind → PolicyDecision
  | .rc => p.defaultRc
  | .event => p.defaultEvent
  | .service => p.defaultService
  | .exec => p.defaultExec

/-- The gate of a kind. -/
def InnitPolicy.allowed (p : InnitPolicy) : RuleKind → String → Bool
  | .rc => p.isRcAllowed
  | .event => p.isEventAllowed
  | .service => p.isServiceAllowed
  | .exec => p.isExecAllowed

/-! ## The grammar -/

/-- The words for a failure action. -/
def failureWords : List String := ["reboot", "restart", "log", "ignore"]

/-- The tags of the logging section. -/
def loggingTags : List String := ["path", "rejectedRcLog", "rejectedServiceLog", "rejectedExecLog"]

/-- A section of the grammar: one of the eight tags, and children with the tags and the attributes the section allows (the
children of `<identity>` are free). -/
def SectionOk (s : XMLElement) : Prop :=
  s.name = "identity" ∨
  (∃ k : RuleKind, s.name = k.tag ∧ ∀ e ∈ s.children, (e.name = "allow" ∨ e.name = "deny") ∧ e.attr k.attr ≠ "") ∨
  (s.name = "command-policy" ∧ ∀ e ∈ s.children, e.name = "deny" ∧ e.attr "verb" ≠ "") ∨
  (s.name = "failure-policy" ∧
    ∀ e ∈ s.children, e.name = "service" ∧ e.attr "name" ≠ "" ∧ e.attr "rebootOnFailure" ∈ failureWords) ∨
  (s.name = "logging" ∧ ∀ e ∈ s.children, e.name ∈ loggingTags ∧ e.attr "value" ≠ "")

/-- The grammar of the policy documents. -/
structure Grammar (root : XMLElement) : Prop where
  name : root.name = "innit"
  attributes : ∀ a ∈ root.attributes, a.1 ∈ InnitPolicy.allowedRootAttrs
  decisions : ∀ k : RuleKind, root.attr k.defaultAttr ∈ ["", "allow", "deny"]
  failure : root.attr "rebootOnFailure" ∈ "" :: failureWords
  selinux : root.attr "selinuxMode" ∈ ["", "permissive", "default"]
  sections : ∀ s ∈ root.children, SectionOk s

/-- The rule elements of a kind, in document order, over all sections of the kind. -/
def XMLElement.ruleElements (root : XMLElement) (k : RuleKind) : List XMLElement :=
  (root.children.filter (·.name = k.tag)).flatMap (·.children)

/-- The decision of a document on a subject: whether the subject is allowed. -/
def XMLElement.decision (root : XMLElement) (k : RuleKind) (subject : String) : Bool :=
  match (root.ruleElements k).find? (fun e => globMatch (e.attr k.attr) subject) with
  | some e => e.name = "allow"
  | none => root.attr k.defaultAttr = "allow"

namespace PolicyAux

open InnitPolicy

/-! ## One lemma for each part of the loader: what it accepts, and what it makes of it -/

theorem requiredAttr_ok_iff (e : XMLElement) (a v : String) :
    e.requiredAttr a = .ok v ↔ e.attr a ≠ "" ∧ e.attr a = v := by
  unfold XMLElement.requiredAttr
  split <;> simp_all

/-- The rule an allow or deny element stands for. -/
def ruleOf (attrName : String) (e : XMLElement) : PolicyRule :=
  ⟨if e.name = "allow" then .allow else .deny, e.attr attrName⟩

theorem parseRuleList_ok_iff (n a : String) (es : List XMLElement) (out rs : List PolicyRule) :
    parseRuleList n a es out = .ok rs ↔
      (∀ e ∈ es, (e.name = "allow" ∨ e.name = "deny") ∧ e.attr a ≠ "") ∧ out ++ es.map (ruleOf a) = rs := by
  induction es generalizing out with
  | nil => simp [parseRuleList]
  | cons e es ih =>
    unfold parseRuleList
    by_cases htag : e.name = "allow" ∨ e.name = "deny"
    · have hnot : ¬(e.name ≠ "allow" ∧ e.name ≠ "deny") := by tauto
      rw [if_neg hnot]
      cases hv : e.requiredAttr a with
      | error err =>
        have hempty : e.attr a = "" := by
          by_contra hne
          rw [(requiredAttr_ok_iff e a _).2 ⟨hne, rfl⟩] at hv
          cases hv
        simp [hempty]
      | ok v =>
        obtain ⟨hne, rfl⟩ := (requiredAttr_ok_iff e a v).1 hv
        simp only [ih, List.mem_cons, forall_eq_or_imp, List.map_cons, List.append_assoc, List.cons_append,
          List.nil_append]
        exact ⟨fun ⟨h, hr⟩ => ⟨⟨⟨htag, hne⟩, h⟩, hr⟩, fun ⟨⟨_, h⟩, hr⟩ => ⟨h, hr⟩⟩
    · rw [if_pos (by tauto)]
      simp only [List.mem_cons, forall_eq_or_imp]
      constructor
      · intro h
        cases h
      · rintro ⟨⟨⟨h, -⟩, -⟩, -⟩
        exact absurd h htag

/-- Two policies with the same rules and defaults, kind by kind. -/
def SameRules (p q : InnitPolicy) : Prop := ∀ k, q.rules k = p.rules k ∧ q.defaultOf k = p.defaultOf k

theorem SameRules.trans {p q r : InnitPolicy} (h : SameRules p q) (h' : SameRules q r) : SameRules p r := by
  intro k
  exact ⟨(h' k).1.trans (h k).1, (h' k).2.trans (h k).2⟩

theorem sameRules_addDeniedCommand (p : InnitPolicy) (v : String) : SameRules p (p.addDeniedCommand v) := by
  intro k
  cases k <;> exact ⟨rfl, rfl⟩

theorem sameRules_addDeniedCommandArg (p : InnitPolicy) (v a : String) : SameRules p (p.addDeniedCommandArg v a) := by
  intro k
  cases k <;> exact ⟨rfl, rfl⟩

theorem sameRules_addFailureRule (p : InnitPolicy) (n : String) (a : FailureAction) :
    SameRules p (p.addFailureRule n a) := by
  intro k
  unfold addFailureRule
  split <;> cases k <;> exact ⟨rfl, rfl⟩

theorem parseCommandPolicy_ok_iff (es : List XMLElement) (p : InnitPolicy) :
    (∃ q, parseCommandPolicy es p = .ok q) ↔ ∀ e ∈ es, e.name = "deny" ∧ e.attr "verb" ≠ "" := by
  induction es generalizing p with
  | nil => simp [parseCommandPolicy]
  | cons e es ih =>
    unfold parseCommandPolicy
    simp only [List.mem_cons, forall_eq_or_imp]
    by_cases htag : e.name = "deny"
    · rw [if_neg (by simp [htag])]
      by_cases hv : e.attr "verb" = ""
      · simp [XMLElement.requiredAttr, hv]
      · rw [(requiredAttr_ok_iff e "verb" _).2 ⟨hv, rfl⟩]
        simp only
        split <;> simp [ih, htag, hv]
    · simp [htag]

theorem sameRules_parseCommandPolicy {es : List XMLElement} {p q : InnitPolicy}
    (h : parseCommandPolicy es p = .ok q) : SameRules p q := by
  induction es generalizing p with
  | nil =>
    cases h
    exact fun k => ⟨rfl, rfl⟩
  | cons e es ih =>
    unfold parseCommandPolicy at h
    split at h
    · cases h
    split at h
    · cases h
    · split at h
      · exact (sameRules_addDeniedCommand _ _).trans (ih h)
      · exact (sameRules_addDeniedCommandArg _ _ _).trans (ih h)

theorem parseFailureActionStrict_ok_iff (s : String) :
    (∃ a, parseFailureActionStrict s = .ok a) ↔ s ∈ failureWords := by
  unfold parseFailureActionStrict failureWords
  split_ifs <;> simp_all

theorem parseFailurePolicy_ok_iff (es : List XMLElement) (p : InnitPolicy) :
    (∃ q, parseFailurePolicy es p = .ok q) ↔
      ∀ e ∈ es, e.name = "service" ∧ e.attr "name" ≠ "" ∧ e.attr "rebootOnFailure" ∈ failureWords := by
  induction es generalizing p with
  | nil => simp [parseFailurePolicy]
  | cons e es ih =>
    unfold parseFailurePolicy
    simp only [List.mem_cons, forall_eq_or_imp]
    by_cases htag : e.name = "service"
    · rw [if_neg (by simp [htag])]
      by_cases hn : e.attr "name" = ""
      · simp [XMLElement.requiredAttr, hn]
      · rw [(requiredAttr_ok_iff e "name" _).2 ⟨hn, rfl⟩]
        by_cases hr : e.attr "rebootOnFailure" = ""
        · simp [XMLElement.requiredAttr, hr, failureWords]
        · simp only [(requiredAttr_ok_iff e "rebootOnFailure" _).2 ⟨hr, rfl⟩]
          rw [← parseFailureActionStrict_ok_iff]
          cases parseFailureActionStrict (e.attr "rebootOnFailure") with
          | error err => simp
          | ok a => simp [ih, htag, hn]
    · simp [htag]

theorem sameRules_parseFailurePolicy {es : List XMLElement} {p q : InnitPolicy}
    (h : parseFailurePolicy es p = .ok q) : SameRules p q := by
  induction es generalizing p with
  | nil =>
    cases h
    exact fun k => ⟨rfl, rfl⟩
  | cons e es ih =>
    unfold parseFailurePolicy at h
    split at h
    · cases h
    split at h
    · cases h
    split at h
    · cases h
    split at h
    · cases h
    · exact (sameRules_addFailureRule _ _ _).trans (ih h)

theorem parseLogging_ok_iff (es : List XMLElement) (l : LoggingConfig) :
    (∃ l', parseLogging es l = .ok l') ↔ ∀ e ∈ es, e.name ∈ loggingTags ∧ e.attr "value" ≠ "" := by
  induction es generalizing l with
  | nil => simp [parseLogging]
  | cons e es ih =>
    unfold parseLogging
    simp only [List.mem_cons, forall_eq_or_imp]
    by_cases hv : e.attr "value" = ""
    · simp [XMLElement.requiredAttr, hv]
    · rw [(requiredAttr_ok_iff e "value" _).2 ⟨hv, rfl⟩]
      simp only
      split_ifs <;> simp_all [loggingTags]

/-- The rules a section adds to a kind. -/
def sectionRules (k : RuleKind) (s : XMLElement) : List PolicyRule :=
  if s.name = k.tag then s.children.map (ruleOf k.attr) else []

/-- A policy with other rules of a kind. -/
def setRules (p : InnitPolicy) (k : RuleKind) (rs : List PolicyRule) : InnitPolicy :=
  match k with
  | .rc => { p with rcRules := rs }
  | .event => { p with eventRules := rs }
  | .service => { p with serviceRules := rs }
  | .exec => { p with execRules := rs }

theorem rules_setRules (p : InnitPolicy) (k k' : RuleKind) (rs : List PolicyRule) :
    (setRules p k rs).rules k' = if k' = k then rs else p.rules k' := by
  cases k <;> cases k' <;> rfl

theorem defaultOf_setRules (p : InnitPolicy) (k k' : RuleKind) (rs : List PolicyRule) :
    (setRules p k rs).defaultOf k' = p.defaultOf k' := by
  cases k <;> cases k' <;> rfl

/-- A section of a rule kind files its rules under that kind. -/
theorem parseSection_rule (k : RuleKind) (s : XMLElement) (p : InnitPolicy) (hs : s.name = k.tag) :
    parseSection s p = (parseRuleList s.name k.attr s.children (p.rules k)).map (setRules p k) := by
  unfold parseSection
  cases k <;> simp only [hs, RuleKind.tag, RuleKind.attr, rules] <;> rfl

theorem map_ok_iff {α β : Type} (r : Result α) (f : α → β) : (∃ b, r.map f = .ok b) ↔ ∃ a, r = .ok a := by
  cases r <;> simp [Except.map]

/-- Tags of different kinds differ. -/
theorem tag_inj {k k' : RuleKind} (h : k.tag = k'.tag) : k = k' := by
  cases k <;> cases k' <;> simp_all [RuleKind.tag]

/-- A section of none of the rule kinds goes to one of the other branches. -/
theorem parseSection_other (s : XMLElement) (p : InnitPolicy) (hs : ∀ k : RuleKind, s.name ≠ k.tag) :
    parseSection s p =
      if s.name = "identity" then .ok p
      else if s.name = "command-policy" then parseCommandPolicy s.children p
      else if s.name = "failure-policy" then parseFailurePolicy s.children p
      else if s.name = "logging" then (parseLogging s.children p.logging).map ({ p with logging := · })
      else .error (Error ("Unexpected top-level policy section <" ++ s.name ++ ">")) := by
  have h1 : s.name ≠ "rc-policy" := hs .rc
  have h2 : s.name ≠ "event-policy" := hs .event
  have h3 : s.name ≠ "service-policy" := hs .service
  have h4 : s.name ≠ "exec-policy" := hs .exec
  unfold parseSection
  simp only [h1, h2, h3, h4, if_false]

/-- A section is accepted exactly when it is in the grammar, whatever came before it. -/
theorem parseSection_ok_iff (s : XMLElement) (p : InnitPolicy) : (∃ q, parseSection s p = .ok q) ↔ SectionOk s := by
  unfold SectionOk
  by_cases hk : ∃ k : RuleKind, s.name = k.tag
  · obtain ⟨k, hk⟩ := hk
    have hname : s.name ≠ "identity" ∧ s.name ≠ "command-policy" ∧ s.name ≠ "failure-policy" ∧ s.name ≠ "logging" := by
      rw [hk]
      cases k <;> decide
    rw [parseSection_rule k s p hk, map_ok_iff]
    simp only [parseRuleList_ok_iff, exists_and_left, exists_eq', and_true, hname, false_and, or_false, false_or]
    constructor
    · exact fun h => ⟨k, hk, h⟩
    · rintro ⟨k', hk', h⟩
      rwa [tag_inj (hk.symm.trans hk')]
  · have hk' : ∀ k : RuleKind, s.name ≠ k.tag := fun k h => hk ⟨k, h⟩
    rw [parseSection_other s p hk']
    simp only [hk', false_and, exists_false, false_or]
    by_cases h1 : s.name = "identity"
    · simp [h1]
    by_cases h2 : s.name = "command-policy"
    · simp [h2, parseCommandPolicy_ok_iff]
    by_cases h3 : s.name = "failure-policy"
    · simp [h3, parseFailurePolicy_ok_iff]
    by_cases h4 : s.name = "logging"
    · simp [h4, map_ok_iff, parseLogging_ok_iff]
    · simp [h1, h2, h3, h4]

/-- What an accepted section does to the rules and the defaults. -/
theorem parseSection_rules {s : XMLElement} {p q : InnitPolicy} (h : parseSection s p = .ok q) (k : RuleKind) :
    q.rules k = p.rules k ++ sectionRules k s ∧ q.defaultOf k = p.defaultOf k := by
  by_cases hk : ∃ k' : RuleKind, s.name = k'.tag
  · obtain ⟨k', hk'⟩ := hk
    rw [parseSection_rule k' s p hk'] at h
    cases hr : parseRuleList s.name k'.attr s.children (p.rules k') with
    | error e =>
      rw [hr] at h
      cases h
    | ok rs =>
      rw [hr] at h
      cases h
      obtain ⟨-, hrs⟩ := (parseRuleList_ok_iff _ _ _ _ _).1 hr
      rw [rules_setRules, defaultOf_setRules]
      refine ⟨?_, rfl⟩
      by_cases hkk : k = k'
      · subst hkk
        simp [sectionRules, hk', ← hrs]
      · have hne : s.name ≠ k.tag := fun e => hkk (tag_inj (e.symm.trans hk'))
        simp [sectionRules, hkk, hne]
  · have hk' : ∀ k : RuleKind, s.name ≠ k.tag := fun k h => hk ⟨k, h⟩
    have hsame : SameRules p q := by
      rw [parseSection_other s p hk'] at h
      split_ifs at h
      · cases h
        exact fun k => ⟨rfl, rfl⟩
      · exact sameRules_parseCommandPolicy h
      · exact sameRules_parseFailurePolicy h
      · cases hl : parseLogging s.children p.logging with
        | error e =>
          rw [hl] at h
          cases h
        | ok l =>
          rw [hl] at h
          cases h
          intro k
          cases k <;> exact ⟨rfl, rfl⟩
    simpa [sectionRules, hk' k] using hsame k

theorem parseSections_ok_iff (ss : List XMLElement) (p : InnitPolicy) :
    (∃ q, parseSections ss p = .ok q) ↔ ∀ s ∈ ss, SectionOk s := by
  induction ss generalizing p with
  | nil => simp [parseSections]
  | cons s ss ih =>
    unfold parseSections
    simp only [List.mem_cons, forall_eq_or_imp, ← parseSection_ok_iff s p]
    cases parseSection s p with
    | error e => simp
    | ok q => simp [ih]

/-- The sections add their rules in document order and leave the defaults. -/
theorem parseSections_rules {ss : List XMLElement} {p q : InnitPolicy} (h : parseSections ss p = .ok q) (k : RuleKind) :
    q.rules k = p.rules k ++ ss.flatMap (sectionRules k) ∧ q.defaultOf k = p.defaultOf k := by
  induction ss generalizing p with
  | nil =>
    cases h
    simp
  | cons s ss ih =>
    unfold parseSections at h
    cases hs : parseSection s p with
    | error e =>
      rw [hs] at h
      cases h
    | ok p' =>
      rw [hs] at h
      obtain ⟨hr, hd⟩ := ih h
      obtain ⟨hr', hd'⟩ := parseSection_rules hs k
      exact ⟨by rw [hr, hr', List.flatMap_cons, List.append_assoc], hd.trans hd'⟩

/-- The rules the sections add to a kind are those of the document's rule elements of the kind. -/
theorem flatMap_sectionRules (k : RuleKind) (ss : List XMLElement) :
    ss.flatMap (sectionRules k) = ((ss.filter (·.name = k.tag)).flatMap (·.children)).map (ruleOf k.attr) := by
  induction ss with
  | nil => rfl
  | cons s ss ih =>
    rw [List.flatMap_cons, ih]
    by_cases hs : s.name = k.tag <;> simp [sectionRules, hs]

theorem validateRootAttributes_ok_iff (as : List (String × String)) :
    validateRootAttributes as = .ok () ↔ ∀ a ∈ as, a.1 ∈ allowedRootAttrs := by
  induction as with
  | nil => simp [validateRootAttributes]
  | cons a as ih =>
    unfold validateRootAttributes
    split <;> simp_all

theorem bind_ok_iff {α β : Type} (r : Result α) (f : α → Result β) (b : β) :
    (r >>= f) = .ok b ↔ ∃ a, r = .ok a ∧ f a = .ok b := by
  cases r with
  | error e => simp [bind, Except.bind]
  | ok a => simp [bind, Except.bind]

/-- A default attribute, and what it sets the default to. -/
theorem parseOptionalDecision_ok_iff (root : XMLElement) (attr : String) (d : PolicyDecision) :
    parseOptionalDecision root attr .deny = .ok d ↔
      root.attr attr ∈ ["", "allow", "deny"] ∧ (d = .allow ↔ root.attr attr = "allow") := by
  unfold parseOptionalDecision parseDecisionStrict
  split_ifs with h1 h2 h3
  · cases d <;> simp [h1]
  · cases d <;> simp [h2]
  · cases d <;> simp [h3]
  · simp [h1, h2, h3]

/-- A word of a default attribute gives a default. -/
theorem exists_decision (root : XMLElement) (attr : String) (h : root.attr attr ∈ ["", "allow", "deny"]) :
    ∃ d, parseOptionalDecision root attr .deny = .ok d := by
  simp only [parseOptionalDecision_ok_iff]
  by_cases ha : root.attr attr = "allow"
  · exact ⟨.allow, h, by simp [ha]⟩
  · exact ⟨.deny, h, by simp [ha]⟩

/-- The defaults are accepted exactly when their words are, and a kind is then allowed by default exactly when its attribute
says so. -/
theorem parseDefaults_ok {root : XMLElement} {m : String} {p : InnitPolicy}
    (h : parseDefaults root { mode := m } = .ok p) (k : RuleKind) :
    root.attr k.defaultAttr ∈ ["", "allow", "deny"] ∧ (p.defaultOf k = .allow ↔ root.attr k.defaultAttr = "allow") ∧
      p.rules k = [] := by
  unfold parseDefaults at h
  simp only [bind_ok_iff, parseOptionalDecision_ok_iff] at h
  obtain ⟨rc, hrc, sv, hsv, ex, hex, ev, hev, h⟩ := h
  cases h
  cases k
  · exact ⟨hrc.1, hrc.2, rfl⟩
  · exact ⟨hev.1, hev.2, rfl⟩
  · exact ⟨hsv.1, hsv.2, rfl⟩
  · exact ⟨hex.1, hex.2, rfl⟩

theorem parseDefaults_exists (root : XMLElement) (m : String)
    (h : ∀ k : RuleKind, root.attr k.defaultAttr ∈ ["", "allow", "deny"]) :
    ∃ p, parseDefaults root { mode := m } = .ok p := by
  obtain ⟨rc, hrc⟩ := exists_decision root "defaultRc" (h .rc)
  obtain ⟨sv, hsv⟩ := exists_decision root "defaultService" (h .service)
  obtain ⟨ex, hex⟩ := exists_decision root "defaultExec" (h .exec)
  obtain ⟨ev, hev⟩ := exists_decision root "defaultEvent" (h .event)
  refine ⟨{ mode := m, defaultRc := rc, defaultService := sv, defaultExec := ex, defaultEvent := ev }, ?_⟩
  simp only [parseDefaults, hrc, hsv, hex, hev]
  rfl

theorem parseRootFailure_ok_iff (root : XMLElement) (p : InnitPolicy) :
    (∃ q, parseRootFailure root p = .ok q) ↔ root.attr "rebootOnFailure" ∈ "" :: failureWords := by
  unfold parseRootFailure
  by_cases h : root.attr "rebootOnFailure" = ""
  · simp [h]
  · simp only [h, if_false, map_ok_iff, parseFailureActionStrict_ok_iff, List.mem_cons, false_or]

theorem sameRules_parseRootFailure {root : XMLElement} {p q : InnitPolicy} (h : parseRootFailure root p = .ok q) :
    SameRules p q := by
  unfold parseRootFailure at h
  by_cases he : root.attr "rebootOnFailure" = ""
  · simp only [he, if_true] at h
    cases h
    exact fun k => ⟨rfl, rfl⟩
  · simp only [he, if_false] at h
    cases ha : parseFailureActionStrict (root.attr "rebootOnFailure") with
    | error e =>
      rw [ha] at h
      cases h
    | ok a =>
      rw [ha] at h
      cases h
      exact sameRules_addFailureRule _ _ _

theorem parseSelinuxMode_ok_iff (root : XMLElement) (p : InnitPolicy) :
    (∃ q, parseSelinuxMode root p = .ok q) ↔ root.attr "selinuxMode" ∈ ["", "permissive", "default"] := by
  unfold parseSelinuxMode
  split_ifs <;> simp_all

theorem sameRules_parseSelinuxMode {root : XMLElement} {p q : InnitPolicy} (h : parseSelinuxMode root p = .ok q) :
    SameRules p q := by
  unfold parseSelinuxMode at h
  split_ifs at h
  all_goals
    cases h
    intro k
    cases k <;> exact ⟨rfl, rfl⟩

/-- The root attributes are accepted exactly when they are in the grammar. -/
theorem parseRoot_ok_iff (root : XMLElement) : (∃ p, parseRoot root = .ok p) ↔
    (∀ a ∈ root.attributes, a.1 ∈ allowedRootAttrs) ∧ (∀ k : RuleKind, root.attr k.defaultAttr ∈ ["", "allow", "deny"]) ∧
      root.attr "rebootOnFailure" ∈ "" :: failureWords ∧ root.attr "selinuxMode" ∈ ["", "permissive", "default"] := by
  unfold parseRoot
  simp only [bind_ok_iff]
  constructor
  · rintro ⟨p, _, ha, p1, h1, p2, h2, h3⟩
    exact ⟨(validateRootAttributes_ok_iff _).1 ha, fun k => (parseDefaults_ok h1 k).1,
      (parseRootFailure_ok_iff root p1).1 ⟨p2, h2⟩, (parseSelinuxMode_ok_iff root p2).1 ⟨p, h3⟩⟩
  · rintro ⟨ha, hd, hf, hs⟩
    obtain ⟨p1, h1⟩ := parseDefaults_exists root (root.attr "mode") hd
    obtain ⟨p2, h2⟩ := (parseRootFailure_ok_iff root p1).2 hf
    obtain ⟨p, h3⟩ := (parseSelinuxMode_ok_iff root p2).2 hs
    exact ⟨p, (), (validateRootAttributes_ok_iff _).2 ha, p1, h1, p2, h2, h3⟩

/-- The policy of the root attributes: no rules yet, the defaults of the attributes. -/
theorem parseRoot_rules {root : XMLElement} {p : InnitPolicy} (h : parseRoot root = .ok p) (k : RuleKind) :
    p.rules k = [] ∧ (p.defaultOf k = .allow ↔ root.attr k.defaultAttr = "allow") := by
  unfold parseRoot at h
  simp only [bind_ok_iff] at h
  obtain ⟨-, -, p1, h1, p2, h2, h3⟩ := h
  obtain ⟨-, hd, hr⟩ := parseDefaults_ok h1 k
  obtain ⟨er, ed⟩ := ((sameRules_parseRootFailure h2).trans (sameRules_parseSelinuxMode h3)) k
  rw [er, ed]
  exact ⟨hr, hd⟩

/-- A gate is the first rule that matches, else the default. -/
theorem evaluateRules_eq (rules : List PolicyRule) (d : PolicyDecision) (subject : String) :
    evaluateRules rules d subject = match rules.find? (fun r => globMatch r.pattern subject) with
      | some r => decide (r.decision = .allow)
      | none => decide (d = .allow) := by
  induction rules with
  | nil => rfl
  | cons r rules ih =>
    unfold evaluateRules
    cases hm : globMatch r.pattern subject with
    | true => simp [hm]
    | false => simpa [hm] using ih

theorem allowed_eq (p : InnitPolicy) (k : RuleKind) (subject : String) :
    p.allowed k subject = evaluateRules (p.rules k) (p.defaultOf k) subject := by
  cases k <;> rfl

/-- The rules of rule elements decide as the elements do. -/
theorem evaluateRules_map_ruleOf (k : RuleKind) (root : XMLElement) (d : PolicyDecision) (es : List XMLElement)
    (hd : d = .allow ↔ root.attr k.defaultAttr = "allow") (subject : String) :
    evaluateRules (es.map (ruleOf k.attr)) d subject =
      match es.find? (fun e => globMatch (e.attr k.attr) subject) with
      | some e => decide (e.name = "allow")
      | none => decide (root.attr k.defaultAttr = "allow") := by
  rw [evaluateRules_eq, List.find?_map]
  have hcomp : (fun r : PolicyRule => globMatch r.pattern subject) ∘ ruleOf k.attr =
      fun e : XMLElement => globMatch (e.attr k.attr) subject := rfl
  rw [hcomp]
  cases es.find? (fun e => globMatch (e.attr k.attr) subject) with
  | none => simp [hd]
  | some e => by_cases he : e.name = "allow" <;> simp [ruleOf, he]

end PolicyAux

open InnitPolicy PolicyAux

/-- The loader accepts a document exactly when it has a root in the grammar. -/
theorem loadFromFile_ok_iff (path : String) (doc : XMLDocument) :
    (∃ p, loadFromFile path doc = .ok p) ↔ ∃ root, doc = .ok (some root) ∧ Grammar root := by
  match doc with
  | .error e => simp [loadFromFile]
  | .ok none => simp [loadFromFile]
  | .ok (some root) =>
    unfold loadFromFile
    by_cases hn : root.name = "innit"
    · simp only [hn, ne_eq, not_true_eq_false, if_false, bind_ok_iff, Except.ok.injEq, Option.some.injEq,
        exists_eq_left']
      constructor
      · rintro ⟨-, p1, h1, p2, h2, -⟩
        obtain ⟨ha, hd, hf, hs⟩ := (parseRoot_ok_iff root).1 ⟨p1, h1⟩
        exact ⟨hn, ha, hd, hf, hs, (parseSections_ok_iff _ _).1 ⟨p2, h2⟩⟩
      · intro hg
        obtain ⟨p1, h1⟩ := (parseRoot_ok_iff root).2 ⟨hg.attributes, hg.decisions, hg.failure, hg.selinux⟩
        obtain ⟨p2, h2⟩ := (parseSections_ok_iff root.children p1).2 hg.sections
        exact ⟨_, p1, h1, p2, h2, rfl⟩
    · simp only [ne_eq, hn, not_false_eq_true, if_true, reduceCtorEq, exists_false, Except.ok.injEq,
        Option.some.injEq, exists_eq_left', false_iff]
      exact fun hg => hn hg.name

/-- The gates of a loaded policy take the decisions of the document it was loaded from. -/
theorem allowed_of_loadFromFile {path : String} {root : XMLElement} {p : InnitPolicy}
    (h : loadFromFile path (.ok (some root)) = .ok p) (k : RuleKind) (subject : String) :
    p.allowed k subject = root.decision k subject := by
  simp only [loadFromFile] at h
  split_ifs at h
  simp only [bind_ok_iff] at h
  obtain ⟨p1, h1, p2, h2, h3⟩ := h
  cases h3
  obtain ⟨hr, hd⟩ := parseRoot_rules h1 k
  obtain ⟨hr2, hd2⟩ := parseSections_rules h2 k
  have hrules : { p2 with loaded := true }.rules k = (root.ruleElements k).map (ruleOf k.attr) := by
    have : { p2 with loaded := true }.rules k = p2.rules k := by cases k <;> rfl
    rw [this, hr2, hr, List.nil_append, flatMap_sectionRules]
    rfl
  have hdef : { p2 with loaded := true }.defaultOf k = .allow ↔ root.attr k.defaultAttr = "allow" := by
    have : { p2 with loaded := true }.defaultOf k = p2.defaultOf k := by cases k <;> rfl
    rw [this, hd2, hd]
  rw [allowed_eq, hrules, evaluateRules_map_ruleOf k root _ _ hdef subject]
  rfl

/-- A policy file means what its document says. The loader returns a policy exactly for the documents of the grammar, and an
error otherwise; and each of the four gates of the policy it returns takes, on every subject, the decision of the first allow
or deny element in document order, over all sections of its kind, whose pattern matches, else of the default attribute, else
deny. -/
theorem loadFromFile_meaning (path : String) (doc : XMLDocument) :
    ((∃ p, loadFromFile path doc = .ok p) ↔ ∃ root, doc = .ok (some root) ∧ Grammar root) ∧
    ((¬∃ root, doc = .ok (some root) ∧ Grammar root) → ∃ e, loadFromFile path doc = .error e) ∧
    ∀ root p, doc = .ok (some root) → loadFromFile path doc = .ok p → ∀ subject,
      p.isRcAllowed subject = root.decision .rc subject ∧
      p.isServiceAllowed subject = root.decision .service subject ∧
      p.isExecAllowed subject = root.decision .exec subject ∧
      p.isEventAllowed subject = root.decision .event subject := by
  refine ⟨loadFromFile_ok_iff path doc, ?_, ?_⟩
  · intro hno
    cases h : loadFromFile path doc with
    | error e => exact ⟨e, rfl⟩
    | ok p => exact absurd ((loadFromFile_ok_iff path doc).1 ⟨p, h⟩) hno
  · rintro root p rfl h subject
    exact ⟨allowed_of_loadFromFile h .rc subject, allowed_of_loadFromFile h .service subject,
      allowed_of_loadFromFile h .exec subject, allowed_of_loadFromFile h .event subject⟩

/-- A document with two sections of one kind and another between them. -/
def sampleDocument : XMLElement :=
  .mk "innit" [("version", "1"), ("defaultExec", "allow")]
    [.mk "rc-policy" [] [.mk "deny" [("path", "/vendor/bad.rc")] []],
      .mk "exec-policy" [] [.mk "deny" [("path", "/tmp/**")] []],
      .mk "rc-policy" [] [.mk "allow" [("path", "/vendor/*")] []]]

/-- The sample document is accepted, and its policy denies by the first section what the third would allow. -/
theorem loadFromFile_meaning_sample :
    ∃ p, loadFromFile "innit.xml" (.ok (some sampleDocument)) = .ok p ∧ p.isRcAllowed "/vendor/bad.rc" = false ∧
      p.isRcAllowed "/vendor/ok.rc" = true ∧ p.isExecAllowed "/bin/sh" = true ∧ p.isEventAllowed "boot" = false := by
  have hm := loadFromFile_meaning "innit.xml" (.ok (some sampleDocument))
  refine ⟨_, rfl, ?_, ?_, ?_, ?_⟩
  · rw [(hm.2.2 sampleDocument _ rfl rfl "/vendor/bad.rc").1]
    decide
  · rw [(hm.2.2 sampleDocument _ rfl rfl "/vendor/ok.rc").1]
    decide
  · rw [(hm.2.2 sampleDocument _ rfl rfl "/bin/sh").2.2.1]
    decide
  · rw [(hm.2.2 sampleDocument _ rfl rfl "boot").2.2.2]
    decide

end Innit
