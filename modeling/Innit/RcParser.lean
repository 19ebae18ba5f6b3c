import Mathlib.Data.List.Sort
import Mathlib.Data.String.Basic
import Innit.ServiceParser

/-!
# The section parsers of the rc files, and the loading of files

`ServiceParser`, `ActionParser` and `ImportParser` over one state, and `ParseConfig`. Loading is a recursion through the end of
a file: `ImportParser::EndFile` calls `ParseConfig` on what the file imports. The source does not bound it; the model takes
the depth of imports it follows as fuel, and notes when it runs out.
-/

namespace Innit

/-- The state of the section parsers: the world they add to, and their own members. -/
structure Rc where
  world : World
  service : Option Service := none
  innitServiceDenied : Bool := false
  serviceFilename : String := ""
  action : Option Action := none
  imports : List (String × Nat) := []
  importFilename : String := ""
  outOfFuel : Bool := false
deriving DecidableEq, Repr

/-- What the options of a service read. -/
def Rc.optionEnv (Γ : Ctx) (rc : Rc) : OptionEnv := ⟨Γ, rc.world.services, rc.world.g.sys.getProperty⟩

/-! ## Services -/

namespace ServiceParser

/-- `ServiceParser::ParseSection`. A denied service is dropped without an error. -/
def parseSection (Γ : Ctx) (fromApex : Bool) (args : List String) (filename : String) (_line : Nat) (rc : Rc) :
    Result Unit × Rc :=
  match headerError args with
  | some message => (.error (Error message), rc)
  | none =>
    if gate Γ.policy (·.isServiceAllowed (args.getD 1 "")) then
      (.ok (), { rc with
        innitServiceDenied := false
        serviceFilename := filename
        service := some (newService Γ fromApex filename args) })
    else (.ok (), { rc with innitServiceDenied := true, service := none })

/-- `ServiceParser::ParseLineSection`. -/
def parseLineSection (Γ : Ctx) (args : List String) (_line : Nat) (rc : Rc) : Result Unit × Rc :=
  match rc.service with
  | none => (.ok (), rc)
  | some s =>
    let r := parseOptionLine (rc.optionEnv Γ) args s
    (r.1, { rc with service := some r.2 })

/-- `ServiceParser::EndSection`. A service that is refused stays in `service_`. -/
def endSection (Γ : Ctx) (rc : Rc) : Result Unit × Rc :=
  if rc.innitServiceDenied then (.ok (), { rc with innitServiceDenied := false, service := none })
  else match rc.service with
    | none => (.ok (), rc)
    | some s => match endError Γ rc.serviceFilename s (rc.world.find (.name s.name)) with
      | some message => (.error (Error message), rc)
      | none => (.ok (), { rc with world := (rc.world.removeService s.name).addService s, service := none })

/-- `ServiceParser`. -/
def sectionParser (Γ : Ctx) (fromApex : Bool) : SectionParser Rc where
  parseSection := parseSection Γ fromApex
  parseLineSection := parseLineSection Γ
  endSection := endSection Γ

end ServiceParser

/-! ## Actions -/

namespace ActionParser

/-- The prefixes of the properties a partner may use as triggers. -/
def partnerPrefixes : List String :=
  ["init.svc.vendor.", "ro.vendor.", "persist.vendor.", "vendor.", "init.svc.odm.", "ro.odm.", "persist.odm.", "odm.", "ro.boot."]

/-- `IsActionableProperty`. -/
def isActionableProperty (Γ : Ctx) (subcontext : Option String) (name : String) : Bool :=
  match subcontext with
  | none => true
  | some context => !Γ.actionableCompatible || partnerPrefixes.any (startsWith name) || Γ.canRead context name

/-- `emplace` into the map of property triggers; `none` if the name is there. -/
def emplace (name value : String) : List (String × String) → Option (List (String × String))
  | [] => some [(name, value)]
  | t :: ts =>
    if name = t.1 then none
    else if name.toList < t.1.toList then some ((name, value) :: t :: ts)
    else (emplace name value ts).map (t :: ·)

/-- `ParsePropertyTrigger`. -/
def parsePropertyTrigger (Γ : Ctx) (subcontext : Option String) (trigger : String) (triggers : List (String × String)) :
    Result (List (String × String)) :=
  let text := (substr trigger "property:".length).toList
  if '=' ∈ text then
    let name := String.ofList (text.takeWhile (· ≠ '='))
    let value := String.ofList (text.dropWhile (· ≠ '=')).tail
    if !isActionableProperty Γ subcontext name then .error (Error ("unexported property trigger found: " ++ name))
    else match emplace name value triggers with
      | none => .error (Error "multiple property triggers found for same property")
      | some triggers => .ok triggers
  else .error (Error "property trigger found without matching '='")

/-- A character an event trigger may hold. -/
def isTriggerChar (c : Char) : Bool := c = '_' || c = '-' || isAlpha c || isDigit c

/-- `ValidateEventTrigger`. -/
def validateEventTrigger (Γ : Ctx) (trigger : String) : Result Unit :=
  if Γ.vendorApi ≥ apiR then
    match trigger.toList.find? (fun c => !isTriggerChar c) with
    | some c => .error (Error ("Illegal character '" ++ String.singleton c ++ "' in '" ++ trigger ++ "'"))
    | none => .ok ()
  else .ok ()

/-- `ParseTriggers`, from a trigger or from an `&&` on. -/
def parseTriggers (Γ : Ctx) (subcontext : Option String) :
    Bool → List String → String → List (String × String) → Result (String × List (String × String))
  | _, [], event, triggers => .ok (event, triggers)
  | atAnd, arg :: args, event, triggers =>
    if arg = "" then .error (Error "empty trigger is not valid")
    else if atAnd then
      if arg = "&&" then parseTriggers Γ subcontext false args event triggers
      else .error (Error "&& is the only symbol allowed to concatenate actions")
    else if startsWith arg "property:" then
      match parsePropertyTrigger Γ subcontext arg triggers with
      | .error e => .error e
      | .ok triggers => parseTriggers Γ subcontext true args event triggers
    else if event ≠ "" then .error (Error "multiple event triggers are not allowed")
    else match validateEventTrigger Γ arg with
      | .error e => .error e
      | .ok () => parseTriggers Γ subcontext true args arg triggers

/-- `ActionParser::ParseSection`. -/
def parseSection (Γ : Ctx) (args : List String) (filename : String) (line : Nat) (rc : Rc) : Result Unit × Rc :=
  if args.tail = [] then (.error (Error "Actions must have a trigger"), rc)
  else
    let subcontext := ServiceParser.subcontextOf Γ filename
    match parseTriggers Γ subcontext false args.tail "" [] with
    | .error e => (.error (e.within "ParseTriggers() failed: "), rc)
    | .ok (event, triggers) =>
      let action : Action := { oneshot := false, subcontext := subcontext, filename := filename, line := line,
                               eventTrigger := event, propertyTriggers := triggers }
      (.ok (), { rc with action := some action })

/-- `ActionParser::ParseLineSection`. -/
def parseLineSection (args : List String) (line : Nat) (rc : Rc) : Result Unit × Rc :=
  match rc.action with
  | none => (.ok (), rc)
  | some a => match a.addCommand args line with
    | .error e => (.error e, rc)
    | .ok a => (.ok (), { rc with action := some a })

/-- An action made and added to the manager of a world. -/
def addAction (Γ : Ctx) (a : Action) (w : World) : World :=
  w.onSys (fun σ => { (σ.ask Γ .allocate).2 with am := σ.am.addAction (σ.ask Γ .allocate).1.value.toNat a })

/-- `ActionParser::EndSection`. An action without commands stays in `action_`. -/
def endSection (Γ : Ctx) (rc : Rc) : Result Unit × Rc :=
  match rc.action with
  | none => (.ok (), rc)
  | some a => if a.commands = [] then (.ok (), rc) else (.ok (), { rc with world := addAction Γ a rc.world, action := none })

/-- `ActionParser`. -/
def sectionParser (Γ : Ctx) : SectionParser Rc where
  parseSection := parseSection Γ
  parseLineSection := parseLineSection
  endSection := endSection Γ

end ActionParser

/-! ## Imports -/

namespace ImportParser

/-- `ImportParser::ParseSection`. A denied file is not put on the list. -/
def parseSection (Γ : Ctx) (args : List String) (filename : String) (line : Nat) (rc : Rc) : Result Unit × Rc :=
  if args.length ≠ 2 then (.error (Error "single argument needed for import\n"), rc)
  else match expandProps Γ.vendorApi rc.world.g.sys.getProperty (args.getD 1 "") with
    | .error e => (.error (e.within "Could not expand import: "), rc)
    | .ok file =>
      if gate Γ.policy (·.isRcAllowed file) then
        (.ok (), { rc with
          importFilename := if rc.importFilename = "" then filename else rc.importFilename
          imports := rc.imports ++ [(file, line)] })
      else (.ok (), rc)

/-- `ImportParser::ParseLineSection`. -/
def parseLineSection (_args : List String) (_line : Nat) (rc : Rc) : Result Unit × Rc :=
  (.error (Error "Unexpected line found after import statement"), rc)

/-- `ImportParser::EndFile`, with the parser it calls. -/
def endFile (parseConfig : String → Parsing Rc → Bool × Parsing Rc) (p : Parsing Rc) : Parsing Rc :=
  p.state.imports.foldl (fun p file => (parseConfig file.1 p).2) { p with state := { p.state with imports := [] } }

/-- `ImportParser`. -/
def sectionParser (Γ : Ctx) (parseConfig : String → Parsing Rc → Bool × Parsing Rc) : SectionParser Rc where
  parseSection := parseSection Γ
  parseLineSection := parseLineSection
  endFile := endFile parseConfig

end ImportParser

/-! ## Loading -/

/-- `CreateParser`, with the `ParseConfig` its import parser calls. -/
def createParserWith (Γ : Ctx) (parseConfig : String → Parsing Rc → Bool × Parsing Rc) : Parser Rc where
  sectionParsers :=
    [("import", ImportParser.sectionParser Γ parseConfig), ("on", ActionParser.sectionParser Γ),
      ("service", ServiceParser.sectionParser Γ false)]

/-- `CreateServiceOnlyParser`. -/
def createServiceOnlyParser (Γ : Ctx) (fromApex : Bool) : Parser Rc where
  sectionParsers := [("service", ServiceParser.sectionParser Γ fromApex)]

/-- `ParseConfigFile`. The file gate comes before the file is read; a denial counts as success. -/
def parseConfigFile (Γ : Ctx) (P : Parser Rc) (path : String) (p : Parsing Rc) : Bool × Parsing Rc :=
  if gate Γ.policy (·.isRcAllowed path) then
    match p.state.world.g.sys.files.readFile path with
    | .error _ => (false, p)
    | .ok content => (true, P.parseData path content p)
  else (true, p)

/-- The regular files of a directory, by path, sorted. -/
def configFiles (path : String) (entries : List (String × Bool)) : List String :=
  ((entries.filter (·.2)).map (fun e => path ++ "/" ++ e.1)).insertionSort (fun a b => a.toList ≤ b.toList)

/-- `ParseConfigDir`. -/
def parseConfigDir (Γ : Ctx) (P : Parser Rc) (path : String) (p : Parsing Rc) : Bool × Parsing Rc :=
  if gate Γ.policy (·.isRcAllowed path) then
    match p.state.world.g.sys.files.node path with
    | some (.dir entries) => (true, (configFiles path entries).foldl (fun p file => (parseConfigFile Γ P file p).2) p)
    | _ => (false, p)
  else (true, p)

/-- `ParseConfig`, on a parser. -/
def parseConfigWith (Γ : Ctx) (P : Parser Rc) (path : String) (p : Parsing Rc) : Bool × Parsing Rc :=
  if p.state.world.g.sys.files.isDir path then parseConfigDir Γ P path p else parseConfigFile Γ P path p

/-- `ParseConfig`, following imports to a depth. -/
def parseConfig (Γ : Ctx) : Nat → String → Parsing Rc → Bool × Parsing Rc
  | 0, _, p => (false, { p with state := { p.state with outOfFuel := true } })
  | depth + 1, path, p => parseConfigWith Γ (createParserWith Γ (parseConfig Γ depth)) path p

/-- `CreateParser`, whose imports are followed to a depth. -/
def createParser (Γ : Ctx) (depth : Nat) : Parser Rc := createParserWith Γ (parseConfig Γ depth)

/-- Several paths loaded with one new parser, for what they do to the world. -/
def World.parseConfigs (Γ : Ctx) (paths : List String) (w : World) : World :=
  (paths.foldl (fun p path => (parseConfig Γ Γ.importDepth path p).2) { state := { world := w } }).state.world

/-- The loop of `parse_apex_configs` over the files, with one service-only parser: whether every file could be parsed. -/
def World.parseApexFiles (Γ : Ctx) (files : List String) (w : World) : Bool × World :=
  let r := files.foldl (fun (acc : Bool × Parsing Rc) file =>
    ((parseConfigFile Γ (createServiceOnlyParser Γ true) file acc.2).1 && acc.1,
      (parseConfigFile Γ (createServiceOnlyParser Γ true) file acc.2).2)) (true, { state := { world := w } })
  (r.1, r.2.state.world)

end Innit
