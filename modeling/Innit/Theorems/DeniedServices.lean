import Innit.Lemmas.Simulation

/-!
# Denied services

A denied service section is parsed without an error and leaves nothing behind. The parse of a file is compared with the parse
of the file without its denied sections; the line numbers are then different ones, so that actions are compared up to line
numbers. What a section parser keeps in its own members between sections (a service that was refused, an action without
commands, the flag of a denied section) is not part of the comparison: it is never looked at.
-/

namespace Innit

/-- An action up to line numbers. -/
def Action.unlined (a : Action) : Action :=
  { a with line := 0, commands := a.commands.map (fun c => { c with line := 0 }) }

/-- The action manager up to line numbers. -/
def ActionManager.unlined (am : ActionManager) : ActionManager :=
  { am with actions := am.actions.map (fun x => (x.1, x.2.unlined)) }

/-- The world up to line numbers. -/
def World.unlined (w : World) : World := w.onSys (fun σ => { σ with am := σ.am.unlined })

/-- The parsers of rc files: the full one, with the imports it follows, and the one for services only. -/
inductive RcParser (Γ : Ctx) : Bool → Parser Rc → Prop
  | full (depth : Nat) : RcParser Γ false (createParser Γ depth)
  | serviceOnly (fromApex : Bool) : RcParser Γ fromApex (createServiceOnlyParser Γ fromApex)

/-- A line that starts a section. -/
def Parser.isHeader {σ : Type} (P : Parser σ) (words : List String) : Bool := (P.sectionParser? (words.headD "")).isSome

/-- The header of a service section that is well formed and denied. -/
def deniedHeader (Γ : Ctx) (words : List String) : Bool :=
  words.headD "" = "service" && ServiceParser.headerError words = none &&
    !gate Γ.policy (·.isServiceAllowed (words.getD 1 ""))

/-- The lines without the denied service sections: the header, and all lines up to the next header. The Boolean says whether
the lines are those of a denied section. -/
def deleteDenied (Γ : Ctx) (P : Parser Rc) : Bool → List (Nat × List String) → List (Nat × List String)
  | _, [] => []
  | deleting, l :: ls =>
    if P.isHeader l.2 then
      if deniedHeader Γ l.2 then deleteDenied Γ P true ls else l :: deleteDenied Γ P false ls
    else if deleting then deleteDenied Γ P true ls
    else l :: deleteDenied Γ P false ls

/-- Two states between sections: the same world up to line numbers, and the same files to import. -/
structure BoundaryRelated (rc rc' : Rc) : Prop where
  world : rc'.world.unlined = rc.world.unlined
  imports : rc'.imports.map (·.1) = rc.imports.map (·.1)
  outOfFuel : rc'.outOfFuel = rc.outOfFuel

/-- Two states in a service section: the same service, or a denied one. -/
structure ServiceRelated (rc rc' : Rc) : Prop extends BoundaryRelated rc rc' where
  service : rc'.service = rc.service
  innitServiceDenied : rc'.innitServiceDenied = rc.innitServiceDenied
  serviceFilename : rc.innitServiceDenied = false → rc'.serviceFilename = rc.serviceFilename

/-- Two states in an action: the same action up to line numbers. -/
structure ActionRelated (rc rc' : Rc) : Prop extends BoundaryRelated rc rc' where
  action : rc'.action.map Action.unlined = rc.action.map Action.unlined

namespace DeniedServicesAux

variable {Γ : Ctx}

theorem unlined_services {w w' : World} (h : w'.unlined = w.unlined) : w'.services = w.services :=
  show w'.unlined.services = w.unlined.services by rw [h]

theorem unlined_getProperty {w w' : World} (h : w'.unlined = w.unlined) : w'.g.sys.getProperty = w.g.sys.getProperty :=
  show w'.unlined.g.sys.getProperty = w.unlined.g.sys.getProperty by rw [h]

theorem unlined_files {w w' : World} (h : w'.unlined = w.unlined) : w'.g.sys.files = w.g.sys.files :=
  show w'.unlined.g.sys.files = w.unlined.g.sys.files by rw [h]

/-- A new action gets the same address. -/
theorem addAction_unlined (a : Action) (w : World) :
    (ActionParser.addAction Γ a w).unlined = ActionParser.addAction Γ a.unlined w.unlined := by
  have haddr : w.g.sys.am.unlined.actions.map (·.1) = w.g.sys.am.actions.map (·.1) := by
    simp [ActionManager.unlined, Function.comp_def]
  have hfresh : ∀ pick, w.g.sys.am.unlined.freshAddress pick = w.g.sys.am.freshAddress pick := by
    intro pick
    unfold ActionManager.freshAddress
    rw [haddr]
  have hadd : ∀ pick, (w.g.sys.am.addAction pick a).unlined = w.g.sys.am.unlined.addAction pick a.unlined := by
    intro pick
    unfold ActionManager.addAction
    rw [hfresh]
    simp [ActionManager.unlined]
  unfold ActionParser.addAction World.unlined World.onSys Globals.withSys
  dsimp only
  rw [hadd]
  rfl

theorem addCommand_unlined (a a' : Action) (h : a'.unlined = a.unlined) (args : List String) (n n' : Nat) :
    match a.addCommand args n, a'.addCommand args n' with
    | .ok b, .ok b' => b'.unlined = b.unlined
    | .error _, .error _ => True
    | _, _ => False := by
  unfold Action.addCommand
  cases builtinFunctionMap.find args with
  | error e => trivial
  | ok v =>
    simp only [Action.unlined, Action.mk.injEq, List.map_append, List.map_cons, List.map_nil] at h ⊢
    obtain ⟨h₁, h₂, h₃, h₄, h₅, h₆, h₇⟩ := h
    exact ⟨h₁, h₂, h₃, h₄, h₅, h₆, by rw [h₇]⟩

theorem serviceParser_related (fromApex : Bool) :
    SectionParser.Related (fun _ _ => True) BoundaryRelated ServiceRelated (ServiceParser.sectionParser Γ fromApex)
      (ServiceParser.sectionParser Γ fromApex) where
  parseSection := by
    intro args filename n n' rc rc' _ h
    change SameAnswer _ _ (ServiceParser.parseSection Γ fromApex args filename n rc)
      (ServiceParser.parseSection Γ fromApex args filename n' rc')
    unfold ServiceParser.parseSection
    cases ServiceParser.headerError args with
    | some message => exact ⟨rfl, fun hok => (by cases hok), fun _ => h⟩
    | none =>
      dsimp only
      split
      · exact ⟨rfl, fun _ => ⟨⟨h.world, h.imports, h.outOfFuel⟩, rfl, rfl, fun _ => rfl⟩, fun hno => by cases hno⟩
      · exact ⟨rfl, fun _ => ⟨⟨h.world, h.imports, h.outOfFuel⟩, rfl, rfl, fun hno => by cases hno⟩, fun hno => by cases hno⟩
  parseLineSection := by
    intro args n n' rc rc' _ h
    change SameAnswer _ _ (ServiceParser.parseLineSection Γ args n rc) (ServiceParser.parseLineSection Γ args n' rc')
    have henv : rc'.optionEnv Γ = rc.optionEnv Γ := by
      unfold Rc.optionEnv
      rw [unlined_services h.world, unlined_getProperty h.world]
    unfold ServiceParser.parseLineSection
    rw [h.service, henv]
    cases rc.service with
    | none => exact .of_both rfl h
    | some s =>
      exact .of_both rfl ⟨⟨h.world, h.imports, h.outOfFuel⟩, rfl, h.innitServiceDenied, h.serviceFilename⟩
  endSection := by
    intro rc rc' h
    change SameAnswer _ _ (ServiceParser.endSection Γ rc) (ServiceParser.endSection Γ rc')
    unfold ServiceParser.endSection
    rw [h.service, h.innitServiceDenied]
    split
    · exact .of_both rfl ⟨h.world, h.imports, h.outOfFuel⟩
    · next hden =>
      cases rc.service with
      | none => exact .of_both rfl h.toBoundaryRelated
      | some s =>
        have hfind : rc'.world.find (.name s.name) = rc.world.find (.name s.name) := by
          unfold World.find
          rw [unlined_services h.world]
        dsimp only
        rw [h.serviceFilename (by simpa using hden), hfind]
        cases ServiceParser.endError Γ rc.serviceFilename s (rc.world.find (.name s.name)) with
        | some message => exact .of_both rfl h.toBoundaryRelated
        | none =>
          refine .of_both rfl ⟨?_, h.imports, h.outOfFuel⟩
          exact congrArg (fun v : World => (v.removeService s.name).addService s) h.world
  endFile := fun _ _ h => h

theorem actionParser_related :
    SectionParser.Related (fun _ _ => True) BoundaryRelated ActionRelated (ActionParser.sectionParser Γ)
      (ActionParser.sectionParser Γ) where
  parseSection := by
    intro args filename n n' rc rc' _ h
    change SameAnswer _ _ (ActionParser.parseSection Γ args filename n rc) (ActionParser.parseSection Γ args filename n' rc')
    unfold ActionParser.parseSection
    split
    · exact ⟨rfl, fun hok => (by cases hok), fun _ => h⟩
    · dsimp only
      cases ActionParser.parseTriggers Γ (ServiceParser.subcontextOf Γ filename) false args.tail "" [] with
      | error e => exact ⟨rfl, fun hok => (by cases hok), fun _ => h⟩
      | ok r => exact ⟨rfl, fun _ => ⟨⟨h.world, h.imports, h.outOfFuel⟩, rfl⟩, fun hno => by cases hno⟩
  parseLineSection := by
    intro args n n' rc rc' _ h
    change SameAnswer _ _ (ActionParser.parseLineSection args n rc) (ActionParser.parseLineSection args n' rc')
    have hact := h.action
    unfold ActionParser.parseLineSection
    cases ha : rc.action with
    | none =>
      cases ha' : rc'.action with
      | none => exact .of_both rfl h
      | some a' => simp [ha, ha'] at hact
    | some a =>
      cases ha' : rc'.action with
      | none => simp [ha, ha'] at hact
      | some a' =>
        have hadd := addCommand_unlined a a' (by simpa [ha, ha'] using hact) args n n'
        dsimp only
        cases hc : a.addCommand args n with
        | error e =>
          cases hc' : a'.addCommand args n' with
          | error e' => exact .of_both rfl h
          | ok b' => simp [hc, hc'] at hadd
        | ok b =>
          cases hc' : a'.addCommand args n' with
          | error e' => simp [hc, hc'] at hadd
          | ok b' =>
            rw [hc, hc'] at hadd
            exact .of_both rfl ⟨⟨h.world, h.imports, h.outOfFuel⟩, congrArg some hadd⟩
  endSection := by
    intro rc rc' h
    change SameAnswer _ _ (ActionParser.endSection Γ rc) (ActionParser.endSection Γ rc')
    have hact := h.action
    unfold ActionParser.endSection
    cases ha : rc.action with
    | none =>
      cases ha' : rc'.action with
      | none => exact .of_both rfl h.toBoundaryRelated
      | some a' => simp [ha, ha'] at hact
    | some a =>
      cases ha' : rc'.action with
      | none => simp [ha, ha'] at hact
      | some a' =>
        have heq : a'.unlined = a.unlined := by simpa [ha, ha'] using hact
        have hnil : a'.commands = [] ↔ a.commands = [] := by
          have hcommands := congrArg (fun b : Action => b.commands = []) heq
          simpa [Action.unlined] using hcommands
        dsimp only
        by_cases hempty : a.commands = []
        · rw [if_pos hempty, if_pos (hnil.2 hempty)]
          exact .of_both rfl h.toBoundaryRelated
        · rw [if_neg hempty, if_neg (fun hno => hempty (hnil.1 hno))]
          refine .of_both rfl ⟨?_, h.imports, h.outOfFuel⟩
          dsimp only
          rw [addAction_unlined, addAction_unlined, heq, h.world]
  endFile := fun _ _ h => h

theorem importParser_related {pc : String → Parsing Rc → Bool × Parsing Rc}
    (hpc : ∀ path p p', Parsing.Related BoundaryRelated p p' → Parsing.Related BoundaryRelated (pc path p).2 (pc path p').2) :
    SectionParser.Related (fun _ _ => True) BoundaryRelated BoundaryRelated (ImportParser.sectionParser Γ pc)
      (ImportParser.sectionParser Γ pc) where
  parseSection := by
    intro args filename n n' rc rc' _ h
    change SameAnswer _ _ (ImportParser.parseSection Γ args filename n rc) (ImportParser.parseSection Γ args filename n' rc')
    unfold ImportParser.parseSection
    rw [unlined_getProperty h.world]
    split
    · exact .of_both rfl h
    · cases expandProps Γ.vendorApi rc.world.g.sys.getProperty (args.getD 1 "") with
      | error e => exact .of_both rfl h
      | ok file =>
        dsimp only
        split
        · refine .of_both rfl ⟨h.world, ?_, h.outOfFuel⟩
          simp only [List.map_append, h.imports, List.map_cons, List.map_nil]
        · exact .of_both rfl h
  parseLineSection := fun _ _ _ _ _ _ h => .of_both rfl h
  endSection := fun _ _ h => .of_both rfl h
  endFile := by
    intro p p' h
    change Parsing.Related _ (ImportParser.endFile pc p) (ImportParser.endFile pc p')
    exact ImportParser.endFile_related hpc p p' h.state.imports ⟨h.errorCount, h.state.world, rfl, h.state.outOfFuel⟩

theorem createParserWith_related {pc : String → Parsing Rc → Bool × Parsing Rc}
    (hpc : ∀ path p p', Parsing.Related BoundaryRelated p p' → Parsing.Related BoundaryRelated (pc path p).2 (pc path p').2) :
    Parser.Related (fun _ _ => True) BoundaryRelated (createParserWith Γ pc) (createParserWith Γ pc) where
  sectionParsers := .cons ⟨rfl, _, importParser_related hpc⟩ (.cons ⟨rfl, _, actionParser_related⟩
    (.cons ⟨rfl, _, serviceParser_related false⟩ .nil))
  lineCallbacks := rfl
  lineCallbacks' := rfl

/-- Parsing keeps the states alike up to line numbers. -/
theorem boundaryRelated_kept : KeptByLoading Γ (fun _ _ => True) BoundaryRelated where
  sameLine := fun _ => trivial
  files := fun _ _ h => unlined_files h.world
  outOfFuel := fun _ _ h => ⟨h.world, h.imports, rfl⟩
  parser := fun _ hpc => createParserWith_related hpc

theorem rcParser_related {fromApex : Bool} {P : Parser Rc} (h : RcParser Γ fromApex P) :
    Parser.Related (fun _ _ => True) BoundaryRelated P P := by
  cases h with
  | full depth => exact createParserWith_related (boundaryRelated_kept.parseConfig depth)
  | serviceOnly => exact ⟨.cons ⟨rfl, _, serviceParser_related fromApex⟩ .nil, rfl, rfl⟩

theorem rcParser_service {fromApex : Bool} {P : Parser Rc} (h : RcParser Γ fromApex P) :
    P.sectionParser? "service" = some (ServiceParser.sectionParser Γ fromApex) := by
  cases h <;> rfl

/-! The denied sections -/

/-- A cursor in a denied section. -/
structure InDenied (Γ : Ctx) (fromApex : Bool) (c : Cursor Rc) : Prop where
  sectionParser : c.sectionParser = some (ServiceParser.sectionParser Γ fromApex)
  denied : c.parsing.state.innitServiceDenied = true
  service : c.parsing.state.service = none

/-- The parse of all lines is in a denied section, while the other is still in the section before it. -/
structure Deleting (Γ : Ctx) (fromApex : Bool) (c c' : Cursor Rc) : Prop where
  inDenied : InDenied Γ fromApex c
  ended : Parsing.Related BoundaryRelated (Parser.endSection c).parsing (Parser.endSection c').parsing

/-- Inside a denied section lines are swallowed. -/
theorem parseOther_denied {fromApex : Bool} {P : Parser Rc} (hP : P.lineCallbacks = []) (filename : String) {c : Cursor Rc}
    (h : InDenied Γ fromApex c) (l : Nat × List String) (hother : P.isHeader l.2 = false) : P.parseLine filename c l = c := by
  have hnone : P.sectionParser? (l.2.headD "") = none := by
    unfold Parser.isHeader at hother
    simpa only [Option.isSome_eq_false_iff, Option.isNone_iff_eq_none] using hother
  obtain ⟨sp, bad, p⟩ := c
  obtain ⟨rfl, _, hservice⟩ := h
  have hline : ServiceParser.parseLineSection Γ l.2 l.1 p.state = (.ok (), p.state) := by
    have hnone : p.state.service = none := hservice
    simp only [ServiceParser.parseLineSection, hnone]
  unfold Parser.parseLine
  simp only [Parser.lineCallback?_none hP, hnone, ServiceParser.sectionParser, hline]
  rfl

/-- The header of a denied section ends the section before it, and that is all. -/
theorem parseHeader_denied {fromApex : Bool} {P : Parser Rc} (hP : RcParser Γ fromApex P) (filename : String)
    {c c' : Cursor Rc} (h : Parsing.Related BoundaryRelated (Parser.endSection c).parsing (Parser.endSection c').parsing)
    (l : Nat × List String) (hden : deniedHeader Γ l.2 = true) : Deleting Γ fromApex (P.parseLine filename c l) c' := by
  simp only [deniedHeader, Bool.and_eq_true, decide_eq_true_eq, Bool.not_eq_true'] at hden
  obtain ⟨⟨hkey, hwell⟩, hgate⟩ := hden
  have hparse : ∀ rc, ServiceParser.parseSection Γ fromApex l.2 filename l.1 rc =
      (.ok (), { rc with innitServiceDenied := true, service := none }) := by
    intro rc
    simp only [ServiceParser.parseSection, hwell, hgate, Bool.false_eq_true, if_false]
  have hline : P.parseLine filename c l = ⟨some (ServiceParser.sectionParser Γ fromApex), false,
      { (Parser.endSection c).parsing with
        state := { (Parser.endSection c).parsing.state with innitServiceDenied := true, service := none } }⟩ := by
    unfold Parser.parseLine
    simp only [Parser.lineCallback?_none (rcParser_related hP).lineCallbacks, hkey, rcParser_service hP]
    change (⟨if (ServiceParser.parseSection Γ fromApex l.2 filename l.1 (Parser.endSection c).parsing.state).1.isOk then _
      else _, _, _⟩ : Cursor Rc) = _
    simp only [ServiceParser.sectionParser, hparse]
    rfl
  rw [hline]
  exact ⟨⟨rfl, rfl, rfl⟩, ⟨h.errorCount, h.state.world, h.state.imports, h.state.outOfFuel⟩⟩

/-- The parse of all lines and the parse without the denied sections, by induction on the lines. -/
theorem parseLines_deleteDenied {fromApex : Bool} {P : Parser Rc} (hP : RcParser Γ fromApex P) (filename : String)
    (lines lines' : List (Nat × List String)) (deleting : Bool)
    (hlines : List.Forall₂ (fun l l' => True ∧ l.2 = l'.2) (deleteDenied Γ P deleting lines) lines') (c c' : Cursor Rc)
    (h : if deleting then Deleting Γ fromApex c c' else Cursor.Related (fun _ _ => True) BoundaryRelated c c') :
    Parsing.Related BoundaryRelated (Parser.endSection (lines.foldl (P.parseLine filename) c)).parsing
      (Parser.endSection (lines'.foldl (P.parseLine filename) c')).parsing := by
  have hended : Parsing.Related BoundaryRelated (Parser.endSection c).parsing (Parser.endSection c').parsing := by
    cases deleting with
    | true => exact h.ended
    | false => exact Parser.endSection_related h
  induction lines generalizing lines' deleting c c' with
  | nil =>
    cases hlines
    exact hended
  | cons l lines ih =>
    obtain ⟨n, words⟩ := l
    cases hheader : P.isHeader words with
    | true =>
      cases hden : deniedHeader Γ words with
      | true =>
        simp only [deleteDenied, hheader, hden, if_true] at hlines
        have hdel := parseHeader_denied hP filename hended (n, words) hden
        exact ih lines' true hlines _ c' hdel hdel.ended
      | false =>
        simp only [deleteDenied, hheader, hden, if_true, Bool.false_eq_true, if_false] at hlines
        cases hlines with
        | @cons _ l' _ lines' hl hrest =>
          obtain ⟨n', words'⟩ := l'
          obtain ⟨_, rfl⟩ := hl
          have hrel := Parser.parseHeader_related (rcParser_related hP) filename hended n n' trivial _ hheader
          exact ih lines' false hrest _ _ hrel (Parser.endSection_related hrel)
    | false =>
      cases deleting with
      | true =>
        simp only [deleteDenied, hheader, if_true, Bool.false_eq_true, if_false] at hlines
        have hsame := parseOther_denied (rcParser_related hP).lineCallbacks filename h.inDenied (n, words) hheader
        rw [List.foldl_cons, hsame]
        exact ih lines' true hlines c c' h hended
      | false =>
        simp only [deleteDenied, hheader, Bool.false_eq_true, if_false] at hlines
        cases hlines with
        | @cons _ l' _ lines' hl hrest =>
          obtain ⟨n', words'⟩ := l'
          obtain ⟨_, rfl⟩ := hl
          have hrel := Parser.parseOther_related (rcParser_related hP) filename h n n' trivial _ hheader
          exact ih lines' false hrest _ _ hrel (Parser.endSection_related hrel)

/-! The services added -/

/-- The services added to a list, and the service under construction, are allowed. -/
structure AllowedAdded (Γ : Ctx) (old : List Service) (rc : Rc) : Prop where
  added : ∀ s ∈ rc.world.services, s ∈ old ∨ gate Γ.policy (·.isServiceAllowed s.name) = true
  service : ∀ s, rc.service = some s → gate Γ.policy (·.isServiceAllowed s.name) = true

theorem serviceParser_allowed (old : List Service) (fromApex : Bool) :
    (ServiceParser.sectionParser Γ fromApex).Keeps "service" (AllowedAdded Γ old) where
  parseSection := by
    intro args filename line rc _ _ h
    change AllowedAdded Γ old (ServiceParser.parseSection Γ fromApex args filename line rc).2
    unfold ServiceParser.parseSection
    split
    · exact h
    · split
      · next hallowed =>
        refine ⟨h.added, ?_⟩
        intro s hs
        cases hs
        exact hallowed
      · exact ⟨h.added, by simp⟩
  parseLineSection := by
    intro args line rc _ h
    change AllowedAdded Γ old (ServiceParser.parseLineSection Γ args line rc).2
    unfold ServiceParser.parseLineSection
    split
    · exact h
    · next s hs =>
      refine ⟨h.added, ?_⟩
      intro s' hs'
      cases hs'
      rw [(ParsingAux.parseOptionLine_kept (Γ := Γ) (rc.optionEnv Γ) rfl args s).name]
      exact h.service s hs
  endSection := by
    intro rc h
    change AllowedAdded Γ old (ServiceParser.endSection Γ rc).2
    unfold ServiceParser.endSection
    split
    · exact ⟨h.added, by simp⟩
    · split
      · exact h
      · next s hs =>
        split
        · exact h
        · refine ⟨?_, by simp⟩
          intro t ht
          rcases List.mem_append.1 ht with ht | ht
          · exact h.added t (List.mem_of_mem_eraseP ht)
          · rw [List.mem_singleton.1 ht]
            exact Or.inr (h.service s hs)
  endFile := fun _ h => h

theorem actionParser_allowed (old : List Service) : (ActionParser.sectionParser Γ).Keeps "on" (AllowedAdded Γ old) where
  parseSection := by
    intro args filename line rc _ _ h
    change AllowedAdded Γ old (ActionParser.parseSection Γ args filename line rc).2
    unfold ActionParser.parseSection
    split
    · exact h
    · dsimp only
      split
      · exact h
      · exact ⟨h.added, h.service⟩
  parseLineSection := by
    intro args line rc _ h
    change AllowedAdded Γ old (ActionParser.parseLineSection args line rc).2
    unfold ActionParser.parseLineSection
    split
    · exact h
    · split
      · exact h
      · exact ⟨h.added, h.service⟩
  endSection := by
    intro rc h
    change AllowedAdded Γ old (ActionParser.endSection Γ rc).2
    unfold ActionParser.endSection
    split
    · exact h
    · split
      · exact h
      · exact ⟨h.added, h.service⟩
  endFile := fun _ h => h

theorem allowedAdded_kept (old : List Service) : KeptByParsing Γ (AllowedAdded Γ old) where
  service := serviceParser_allowed old
  action := actionParser_allowed old
  imports := fun _ _ _ h => ⟨h.added, h.service⟩
  outOfFuel := fun _ h => ⟨h.added, h.service⟩

theorem rcParser_allowed {fromApex : Bool} {P : Parser Rc} (h : RcParser Γ fromApex P) (old : List Service) :
    ∀ e ∈ P.sectionParsers, e.2.Keeps e.1 (AllowedAdded Γ old) := by
  cases h with
  | full depth => exact (allowedAdded_kept old).parser _ (fun path p hp => (allowedAdded_kept old).parseConfig depth path p hp)
  | serviceOnly =>
    intro e he
    rw [List.mem_singleton.1 he]
    exact serviceParser_allowed old fromApex

/-- Every service that `ParseData` adds is allowed. A service that an earlier file has left under construction is not added,
so that the parse may as well start without it. -/
theorem parseLines_allowed {fromApex : Bool} {P : Parser Rc} (hP : RcParser Γ fromApex P) (filename : String)
    (lines : List (Nat × List String)) (p : Parsing Rc) :
    ∀ s ∈ (P.parseLines filename lines p).state.world.services,
      s ∈ p.state.world.services ∨ gate Γ.policy (·.isServiceAllowed s.name) = true := by
  have hstart : Parsing.Related BoundaryRelated p { p with state := { p.state with service := none } } :=
    ⟨rfl, rfl, rfl, rfl⟩
  have hlines : List.Forall₂ (fun l l' => True ∧ l.2 = l'.2) lines lines := List.forall₂_same.2 fun l _ => ⟨trivial, rfl⟩
  have hsame := Parser.parseLines_related (rcParser_related hP) filename hlines hstart
  have hallowed : AllowedAdded Γ p.state.world.services { p.state with service := none } := ⟨fun s hs => Or.inl hs, by simp⟩
  rw [← unlined_services hsame.state.world]
  exact (Parser.parseLines_keeps (rcParser_allowed hP p.state.world.services) (rcParser_related hP).lineCallbacks filename
    lines _ hallowed).added

/-- Lines with the same words. -/
theorem forall₂_of_words {lines lines' : List (Nat × List String)} (h : lines'.map (·.2) = lines.map (·.2)) :
    List.Forall₂ (fun l l' => True ∧ l.2 = l'.2) lines lines' := by
  induction lines generalizing lines' with
  | nil =>
    rw [List.map_eq_nil_iff.1 h]
    exact .nil
  | cons l lines ih =>
    cases lines' with
    | nil => cases h
    | cons l' lines' =>
      rw [List.map_cons, List.map_cons, List.cons.injEq] at h
      exact .cons ⟨trivial, h.1.symm⟩ (ih h.2)

end DeniedServicesAux

open DeniedServicesAux

/-- Denied services are as if absent: for every parser of rc files and every sequence of lines, every service added is allowed,
and the services, the actions up to line numbers and the errors are those of any lines with the words that are left when the
well-formed denied service sections are deleted. -/
theorem denied_services_absent (Γ : Ctx) (policy : InnitPolicy) (hactive : activePolicy Γ.policy = some policy)
    (fromApex : Bool) (P : Parser Rc) (hP : RcParser Γ fromApex P) (filename : String) (lines lines' : List (Nat × List String))
    (hlines : lines'.map (·.2) = (deleteDenied Γ P false lines).map (·.2)) (p : Parsing Rc) :
    (∀ s ∈ (P.parseLines filename lines p).state.world.services,
        s ∈ p.state.world.services ∨ policy.isServiceAllowed s.name = true) ∧
      (P.parseLines filename lines p).state.world.services = (P.parseLines filename lines' p).state.world.services ∧
      (P.parseLines filename lines p).state.world.g.sys.am.unlined.actions =
        (P.parseLines filename lines' p).state.world.g.sys.am.unlined.actions ∧
      (P.parseLines filename lines p).errorCount = (P.parseLines filename lines' p).errorCount ∧
      (P.parseLines filename lines p).state.outOfFuel = (P.parseLines filename lines' p).state.outOfFuel := by
  have hbody := parseLines_deleteDenied hP filename lines lines' false (forall₂_of_words hlines) { parsing := p } { parsing := p }
    (.outside false p p ⟨rfl, rfl, rfl, rfl⟩)
  have hend := Parser.endFile_related (rcParser_related hP) hbody
  refine ⟨?_, (unlined_services hend.state.world).symm, ?_, hend.errorCount.symm, hend.state.outOfFuel.symm⟩
  · intro s hs
    have h := parseLines_allowed hP filename lines p s hs
    unfold gate at h
    rw [hactive] at h
    exact h
  · exact congrArg (fun v : World => v.g.sys.am.actions) hend.state.world.symm

/-- A policy that allows one service. -/
def oneServiceCtx : Ctx where
  policy := some { loaded := true, serviceRules := [⟨.allow, "a"⟩] }

/-- Lines with a denied section whose option lines would be errors, and a bad line after them. -/
def sampleDeniedLines : List (Nat × List String) :=
  [(1, ["service", "b", "/bin/b"]), (2, ["nonsense"]), (3, ["service", "a", "/bin/a"]), (4, ["oneshot"]), (5, ["nonsense"])]

theorem denied_services_absent_sample :
    ((createParser oneServiceCtx 0).parseLines "/init.rc" sampleDeniedLines { state := { world := {} } }).errorCount = 1 ∧
      ((createParser oneServiceCtx 0).parseLines "/init.rc" sampleDeniedLines { state := { world := {} } }).state.world.services =
        ((createParser oneServiceCtx 0).parseLines "/init.rc"
          [(1, ["service", "a", "/bin/a"]), (2, ["oneshot"]), (3, ["nonsense"])] { state := { world := {} } }).state.world.services :=
  ⟨by decide +kernel, (denied_services_absent oneServiceCtx _ rfl false _ (.full 0) "/init.rc" sampleDeniedLines
    [(1, ["service", "a", "/bin/a"]), (2, ["oneshot"]), (3, ["nonsense"])] (by decide +kernel) { state := { world := {} } }).2.1⟩

end Innit
