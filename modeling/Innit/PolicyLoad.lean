import Innit.Policy

/-!
# The policy loader

`InnitPolicy::LoadFromFile` on the element tree of the policy file. The XML library is outside the model: what it hands over
is a document, that is an error, or the root element if there is one. Of a node the loader sees the name, the attributes in
order and the child elements in order.
-/

namespace Innit

/-- An element: its name, its attributes, its child elements. -/
inductive XMLElement where
  | mk (name : String) (attributes : List (String × String)) (children : List XMLElement)

namespace XMLElement

/-- `Name()`. -/
def name : XMLElement → String
  | mk n _ _ => n

/-- The attributes, from `FirstAttribute()` on. -/
def attributes : XMLElement → List (String × String)
  | mk _ as _ => as

/-- The child elements, from `FirstChildElement()` on. -/
def children : XMLElement → List XMLElement
  | mk _ _ cs => cs

/-- `Attr(e, name)`: the value of the attribute, empty when it is absent. -/
def attr (e : XMLElement) (name : String) : String :=
  match e.attributes.find? (·.1 = name) with
  | some a => a.2
  | none => ""

/-- `RequiredAttr(e, name)`. -/
def requiredAttr (e : XMLElement) (name : String) : Result String :=
  if e.attr name = "" then .error (Error ("Missing required attribute '" ++ name ++ "' on <" ++ e.name ++ ">"))
  else .ok (e.attr name)

end XMLElement

/-- What the XML library delivers for a file: an error text, or the root element, if any. -/
abbrev XMLDocument := Except String (Option XMLElement)

namespace InnitPolicy

/-- `ParseDecisionStrict`. -/
def parseDecisionStrict (s attr : String) : Result PolicyDecision :=
  if s = "allow" then .ok .allow
  else if s = "deny" then .ok .deny
  else .error (Error ("Invalid " ++ attr ++ "='" ++ s ++ "', expected allow or deny"))

/-- `ParseFailureActionStrict`. -/
def parseFailureActionStrict (s : String) : Result FailureAction :=
  if s = "reboot" then .ok .reboot
  else if s = "restart" then .ok .restart
  else if s = "log" then .ok .log
  else if s = "ignore" then .ok .ignore
  else .error (Error ("Invalid rebootOnFailure='" ++ s ++ "', expected reboot, restart, log, or ignore"))

/-- `ParseOptionalDecision`: an absent or empty attribute leaves what was there. -/
def parseOptionalDecision (root : XMLElement) (attr : String) (out : PolicyDecision) : Result PolicyDecision :=
  if root.attr attr = "" then .ok out else parseDecisionStrict (root.attr attr) attr

/-- `ParseRuleList`, over the child elements of a section; the rules go to the end of `out`. -/
def parseRuleList (sectionName attrName : String) : List XMLElement → List PolicyRule → Result (List PolicyRule)
  | [], out => .ok out
  | e :: es, out =>
    if e.name ≠ "allow" ∧ e.name ≠ "deny" then
      .error (Error ("Unexpected <" ++ e.name ++ "> inside <" ++ sectionName ++ ">"))
    else match e.requiredAttr attrName with
      | .error err => .error err
      | .ok value =>
        parseRuleList sectionName attrName es (out ++ [⟨if e.name = "allow" then .allow else .deny, value⟩])

/-- `ParseCommandPolicy`. -/
def parseCommandPolicy : List XMLElement → InnitPolicy → Result InnitPolicy
  | [], p => .ok p
  | e :: es, p =>
    if e.name ≠ "deny" then .error (Error ("Unexpected <" ++ e.name ++ "> inside <command-policy>"))
    else match e.requiredAttr "verb" with
      | .error err => .error err
      | .ok verb =>
        if e.attr "arg" = "" then parseCommandPolicy es (p.addDeniedCommand verb)
        else parseCommandPolicy es (p.addDeniedCommandArg verb (e.attr "arg"))

/-- `ParseFailurePolicy`. -/
def parseFailurePolicy : List XMLElement → InnitPolicy → Result InnitPolicy
  | [], p => .ok p
  | e :: es, p =>
    if e.name ≠ "service" then .error (Error ("Unexpected <" ++ e.name ++ "> inside <failure-policy>"))
    else match e.requiredAttr "name" with
      | .error err => .error err
      | .ok name => match e.requiredAttr "rebootOnFailure" with
        | .error err => .error err
        | .ok actionString => match parseFailureActionStrict actionString with
          | .error err => .error err
          | .ok action => parseFailurePolicy es (p.addFailureRule name action)

/-- `ParseLogging`: the value is asked for before the tag is looked at. -/
def parseLogging : List XMLElement → LoggingConfig → Result LoggingConfig
  | [], l => .ok l
  | e :: es, l => match e.requiredAttr "value" with
    | .error err => .error err
    | .ok value =>
      if e.name = "path" then parseLogging es { l with mainLog := value }
      else if e.name = "rejectedRcLog" then parseLogging es { l with rejectedRcLog := value }
      else if e.name = "rejectedServiceLog" then parseLogging es { l with rejectedServiceLog := value }
      else if e.name = "rejectedExecLog" then parseLogging es { l with rejectedExecLog := value }
      else .error (Error ("Unexpected <" ++ e.name ++ "> inside <logging>"))

/-- The names `IsAllowedRootAttr` accepts. -/
def allowedRootAttrs : List String :=
  ["version", "mode", "defaultRc", "defaultService", "defaultExec", "defaultEvent", "rebootOnFailure", "selinuxMode",
    "unknownImport"]

/-- `ValidateRootAttributes`. -/
def validateRootAttributes : List (String × String) → Result Unit
  | [] => .ok ()
  | a :: as =>
    if a.1 ∈ allowedRootAttrs then validateRootAttributes as
    else .error (Error ("Unexpected root attribute '" ++ a.1 ++ "'"))

/-- One section of the root: the body of the section loop of `LoadFromFile`. -/
def parseSection (s : XMLElement) (p : InnitPolicy) : Result InnitPolicy :=
  if s.name = "identity" then .ok p
  else if s.name = "rc-policy" then
    (parseRuleList s.name "path" s.children p.rcRules).map ({ p with rcRules := · })
  else if s.name = "event-policy" then
    (parseRuleList s.name "name" s.children p.eventRules).map ({ p with eventRules := · })
  else if s.name = "service-policy" then
    (parseRuleList s.name "name" s.children p.serviceRules).map ({ p with serviceRules := · })
  else if s.name = "exec-policy" then
    (parseRuleList s.name "path" s.children p.execRules).map ({ p with execRules := · })
  else if s.name = "command-policy" then parseCommandPolicy s.children p
  else if s.name = "failure-policy" then parseFailurePolicy s.children p
  else if s.name = "logging" then (parseLogging s.children p.logging).map ({ p with logging := · })
  else .error (Error ("Unexpected top-level policy section <" ++ s.name ++ ">"))

/-- The section loop of `LoadFromFile`. -/
def parseSections : List XMLElement → InnitPolicy → Result InnitPolicy
  | [], p => .ok p
  | s :: ss, p => match parseSection s p with
    | .error err => .error err
    | .ok p => parseSections ss p

/-- The four default attributes of the root. -/
def parseDefaults (root : XMLElement) (p : InnitPolicy) : Result InnitPolicy := do
  let defaultRc ← parseOptionalDecision root "defaultRc" p.defaultRc
  let defaultService ← parseOptionalDecision root "defaultService" p.defaultService
  let defaultExec ← parseOptionalDecision root "defaultExec" p.defaultExec
  let defaultEvent ← parseOptionalDecision root "defaultEvent" p.defaultEvent
  pure { p with defaultRc, defaultService, defaultExec, defaultEvent }

/-- The `rebootOnFailure` attribute of the root: a failure rule for `*`. -/
def parseRootFailure (root : XMLElement) (p : InnitPolicy) : Result InnitPolicy :=
  if root.attr "rebootOnFailure" = "" then .ok p
  else (parseFailureActionStrict (root.attr "rebootOnFailure")).map (p.addFailureRule "*")

/-- The `selinuxMode` attribute of the root. -/
def parseSelinuxMode (root : XMLElement) (p : InnitPolicy) : Result InnitPolicy :=
  if root.attr "selinuxMode" = "" then .ok p
  else if root.attr "selinuxMode" = "permissive" then .ok { p with selinuxMode := .permissive }
  else if root.attr "selinuxMode" = "default" then .ok { p with selinuxMode := .default }
  else .error (Error ("Invalid selinuxMode='" ++ root.attr "selinuxMode" ++ "', expected default or permissive"))

/-- The attributes of the root: their names, then the mode, the defaults, the failure action, the SELinux mode. -/
def parseRoot (root : XMLElement) : Result InnitPolicy := do
  validateRootAttributes root.attributes
  let p ← parseDefaults root { mode := root.attr "mode" }
  let p ← parseRootFailure root p
  parseSelinuxMode root p

/-- `LoadFromFile`, on what the XML library delivers for the path. -/
def loadFromFile (path : String) : XMLDocument → Result InnitPolicy
  | .error err => .error (Error ("Cannot parse Innit policy " ++ path ++ ": " ++ err))
  | .ok none => .error (Error "Innit policy root must be <innit>")
  | .ok (some root) =>
    if root.name ≠ "innit" then .error (Error "Innit policy root must be <innit>")
    else do
      let p ← parseRoot root
      let p ← parseSections root.children p
      pure { p with loaded := true }

end InnitPolicy

end Innit
