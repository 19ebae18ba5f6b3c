import Innit.Theorems.VerifierOrder

/-!
# Interfaces of an overriding service

A service section with `override` replaces the service of its name when it ends. Its interface lines are checked before, one by
one, against all services of the list, the one to be replaced among them: an interface that this one holds cannot be declared
again, and nobody holds it after the replacement.
-/

namespace Innit

/-- The section parser of the services, after some lines of a section. -/
def Rc.afterLines (Γ : Ctx) (lines : List (Nat × List String)) (rc : Rc) : Rc :=
  lines.foldl (fun rc l => (ServiceParser.parseLineSection Γ l.2 l.1 rc).2) rc

namespace OverrideInterfacesAux

open ParsingAux ServiceParser VerifierOrderAux

variable {Γ : Ctx}

/-- A service under construction after some lines. -/
def built (Γ : Ctx) (rc : Rc) (lines : List (Nat × List String)) (s : Service) : Service :=
  lines.foldl (fun s l => (parseOptionLine (rc.optionEnv Γ) l.2 s).2) s

/-- The lines of a section change the service under construction and nothing else. -/
theorem afterLines_eq (lines : List (Nat × List String)) {rc : Rc} {s : Service} (hs : rc.service = some s) :
    rc.afterLines Γ lines = { rc with service := some (built Γ rc lines s) } :=
  body_service lines hs

/-- What the service holds before some lines it holds after them. -/
theorem built_held (rc : Rc) (lines : List (Nat × List String)) (s : Service) :
    ∀ i ∈ s.interfaces, i ∈ (built Γ rc lines s).interfaces := by
  induction lines generalizing s with
  | nil => exact fun i hi => hi
  | cons l lines ih =>
    intro i hi
    exact ih _ i ((parseOptionLine_kept (Γ := Γ) (rc.optionEnv Γ) rfl l.2 s).held i hi)

theorem built_name (rc : Rc) (lines : List (Nat × List String)) (s : Service) : (built Γ rc lines s).name = s.name := by
  induction lines generalizing s with
  | nil => rfl
  | cons l lines ih => exact (ih _).trans (parseOptionLine_kept (Γ := Γ) (rc.optionEnv Γ) rfl l.2 s).name

/-- An interface line with a good name is accepted when no service holds the interface. -/
theorem interface_line_iff (E : OptionEnv) (s : Service) {name inst : String} (hname : interfaceNameError E.ctx name = none) :
    ((parseOptionLine E ["interface", name, inst] s).1 = .ok () ↔ ¬Used E.services (name ++ "/" ++ inst)) ∧
      ((parseOptionLine E ["interface", name, inst] s).1 = .ok () →
        name ++ "/" ++ inst ∈ (parseOptionLine E ["interface", name, inst] s).2.interfaces) := by
  have hline : parseOptionLine E ["interface", name, inst] s = parseInterface E ["interface", name, inst] s := rfl
  rw [hline, ← find_interface_iff]
  unfold parseInterface
  simp only [List.getD_cons_succ, List.getD_cons_zero, hname]
  cases hfind : E.services.find? (·.interfaces.contains (name ++ "/" ++ inst)) with
  | some t => exact ⟨⟨fun h => (by cases h), fun h => (by cases h)⟩, fun h => (by cases h)⟩
  | none =>
    refine ⟨⟨fun _ => rfl, fun _ => rfl⟩, fun _ => ?_⟩
    dsimp only [accept]
    split
    · rename_i hheld
      exact List.contains_iff_mem.1 hheld
    · exact List.mem_append_right _ (List.mem_singleton.2 rfl)

/-- Where no other service holds the interface, it is used just when the service to be replaced holds it. -/
theorem used_by_old {pre post : List Service} {old : Service} {i : String} (hothers : ∀ t ∈ pre ++ post, i ∉ t.interfaces) :
    Used (pre ++ old :: post) i ↔ i ∈ old.interfaces := by
  constructor
  · rintro ⟨t, ht, hi⟩
    rcases List.mem_append.1 ht with ht | ht
    · exact absurd hi (hothers t (List.mem_append_left _ ht))
    · rcases List.mem_cons.1 ht with rfl | ht
      · exact hi
      · exact absurd hi (hothers t (List.mem_append_right _ ht))
  · intro hi
    exact ⟨old, by simp, hi⟩

/-- A section whose header is good and whose name is allowed begins with a new service. -/
theorem parseSection_begins {args : List String} (fromApex : Bool) (filename : String) (line : Nat) (rc : Rc)
    (hheader : headerError args = none) (hallowed : gate Γ.policy (·.isServiceAllowed (args.getD 1 "")) = true) :
    (parseSection Γ fromApex args filename line rc).2 = { rc with
      innitServiceDenied := false
      serviceFilename := filename
      service := some (newService Γ fromApex filename args) } := by
  unfold parseSection
  rw [hheader]
  dsimp only
  rw [if_pos hallowed]

/-- The interface that the new service holds is found with it, once it has replaced the old one. -/
theorem endSection_found {rc : Rc} {pre post : List Service} {old s : Service} {i : String}
    (hdenied : rc.innitServiceDenied = false) (hs : rc.service = some s) (hservices : rc.world.services = pre ++ old :: post)
    (hfirst : ∀ t ∈ pre, t.name ≠ old.name) (hname : s.name = old.name)
    (hend : endError Γ rc.serviceFilename s (some old) = none) (hheld : i ∈ s.interfaces)
    (hothers : ∀ t ∈ pre ++ post, i ∉ t.interfaces) : (endSection Γ rc).2.world.find (.interface i) = some s := by
  have hprename : ∀ t ∈ pre, (Target.name s.name).matches t = false := by
    intro t ht
    simpa [Target.matches, hname] using hfirst t ht
  have hold : (Target.name s.name).matches old = true := by simp [Target.matches, hname]
  have hfound : rc.world.find (.name s.name) = some old := by
    rw [show rc.world = ⟨pre ++ old :: post, rc.world.g⟩ by rw [← hservices], ChangesAux.find_middle hprename hold]
  have herase : (pre ++ old :: post).eraseP (fun t => decide (t.name = s.name)) = pre ++ post := by
    rw [List.eraseP_append_right _ (fun t ht => by simpa [hname] using hfirst t ht), List.eraseP_cons_of_pos (by simp [hname])]
  have hnobody : (pre ++ post).find? (Target.interface i).matches = none := by
    rw [List.find?_eq_none]
    intro t ht hi
    exact hothers t ht (List.contains_iff_mem.1 hi)
  unfold endSection
  simp only [hdenied, Bool.false_eq_true, if_false, hs, hfound, hend]
  unfold World.find World.addService World.removeService
  dsimp only
  rw [hservices, herase, List.find?_append, hnobody, Option.none_or]
  exact List.find?_cons_of_pos (List.contains_iff_mem.2 hheld)

end OverrideInterfacesAux

open OverrideInterfacesAux ServiceParser VerifierOrderAux

/-- A section of a service whose name `old` has, with any lines before and after an interface line; no other service holds the
interface, its name is good, and the end of the section accepts the replacement. The line is accepted, and `FindInterface` gives
the new service afterwards, just when the service that is replaced does not hold the interface. -/
theorem override_redeclares_iff (Γ : Ctx) (fromApex : Bool) (args : List String) (filename : String) (line n : Nat)
    (before after : List (Nat × List String)) (name inst : String) (rc : Rc) (pre post : List Service) (old s : Service)
    (hheader : headerError args = none) (hallowed : gate Γ.policy (·.isServiceAllowed (args.getD 1 "")) = true)
    (hservices : rc.world.services = pre ++ old :: post) (hold : old.name = args.getD 1 "")
    (hfirst : ∀ t ∈ pre, t.name ≠ old.name) (hname : interfaceNameError Γ name = none)
    (hothers : ∀ t ∈ pre ++ post, name ++ "/" ++ inst ∉ t.interfaces)
    (hs : ((parseSection Γ fromApex args filename line rc).2.afterLines Γ
      (before ++ (n, ["interface", name, inst]) :: after)).service = some s)
    (hend : endError Γ filename s (some old) = none) :
    let begun := (parseSection Γ fromApex args filename line rc).2
    ((parseLineSection Γ ["interface", name, inst] n (begun.afterLines Γ before)).1 = .ok () ∧
        (endSection Γ (begun.afterLines Γ (before ++ (n, ["interface", name, inst]) :: after))).2.world.find
          (.interface (name ++ "/" ++ inst)) = some s) ↔
      name ++ "/" ++ inst ∉ old.interfaces := by
  intro begun
  change (begun.afterLines Γ _).service = some s at hs
  have hbegun : begun = _ := parseSection_begins fromApex filename line rc hheader hallowed
  have hfresh : (newService Γ fromApex filename args).name = old.name := hold.symm
  generalize newService Γ fromApex filename args = fresh at hbegun hfresh
  have hnew : begun.service = some fresh := by rw [hbegun]
  have hlist : (begun.optionEnv Γ).services = pre ++ old :: post := by
    rw [hbegun]
    exact hservices
  have hbefore := afterLines_eq (Γ := Γ) before hnew
  have hafter := afterLines_eq (Γ := Γ) (before ++ (n, ["interface", name, inst]) :: after) hnew
  have hparts : s = built Γ begun after (parseOptionLine (begun.optionEnv Γ) ["interface", name, inst]
      (built Γ begun before fresh)).2 := by
    have hsome : some (built Γ begun (before ++ (n, ["interface", name, inst]) :: after) fresh) = some s := by
      rw [← hs, hafter]
    rw [← Option.some.inj hsome, built, List.foldl_append]
    rfl
  obtain ⟨haccepted, hheld⟩ := interface_line_iff (begun.optionEnv Γ) (built Γ begun before fresh) hname
  have hused : Used (begun.optionEnv Γ).services (name ++ "/" ++ inst) ↔ name ++ "/" ++ inst ∈ old.interfaces := by
    rw [hlist]
    exact used_by_old hothers
  have hline : (parseLineSection Γ ["interface", name, inst] n (begun.afterLines Γ before)).1 =
      (parseOptionLine (begun.optionEnv Γ) ["interface", name, inst] (built Γ begun before fresh)).1 := by
    rw [hbefore]
    rfl
  rw [hline, haccepted, hused]
  refine ⟨fun h => h.1, fun hfree => ⟨hfree, ?_⟩⟩
  have hmem : name ++ "/" ++ inst ∈ s.interfaces := by
    rw [hparts]
    exact built_held begun after _ _ (hheld (haccepted.2 (fun h => hfree (hused.1 h))))
  have hsname : s.name = old.name := by
    rw [hparts]
    exact (built_name begun after _).trans
      ((ParsingAux.parseOptionLine_kept (Γ := Γ) (begun.optionEnv Γ) rfl _ _).name.trans ((built_name begun before fresh).trans hfresh))
  rw [hafter] at hs ⊢
  refine endSection_found (by rw [hbegun]) hs (by rw [hbegun]; exact hservices) hfirst hsname ?_ hmem hothers
  rw [hbegun]
  exact hend

/-- A list with one service, and what a section of another one is parsed with. -/
def listOfOne (old : Service) : Rc := { world := { services := [old] } }

/-- A service that holds an AIDL interface. -/
def interfaceHolder : Service := { name := "s", args := ["/vendor/bin/s"], interfaces := ["aidl/a"] }

/-- The service of a section that overrides it. -/
def overridingService (interfaces : List String) : Service :=
  { name := "s", args := ["/odm/bin/s"], interfaces := interfaces, isOverride := true }

theorem override_redeclares_iff_sample :
    let begun := (parseSection {} false ["service", "s", "/odm/bin/s"] "/odm/s.rc" 1 (listOfOne interfaceHolder)).2
    ((parseLineSection {} ["interface", "aidl", "b"] 2 (begun.afterLines {} [])).1 = .ok () ∧
        (endSection {} (begun.afterLines {} ([] ++ (2, ["interface", "aidl", "b"]) :: [(3, ["override"])]))).2.world.find
          (.interface ("aidl" ++ "/" ++ "b")) = some (overridingService ["aidl/b"])) ↔
      "aidl" ++ "/" ++ "b" ∉ interfaceHolder.interfaces :=
  override_redeclares_iff {} false ["service", "s", "/odm/bin/s"] "/odm/s.rc" 1 2 [] [(3, ["override"])] "aidl" "b"
    (listOfOne interfaceHolder) [] [] interfaceHolder (overridingService ["aidl/b"]) (by decide) (by decide) rfl rfl (by simp)
    (by decide) (by simp) (by decide) (by decide)

/-- An overriding service cannot declare the interface of the service that it replaces. -/
theorem redeclaration_refused :
    ¬∀ (Γ : Ctx) (fromApex : Bool) (args : List String) (filename : String) (line n : Nat)
        (before after : List (Nat × List String)) (name inst : String) (rc : Rc) (pre post : List Service) (old s : Service),
      headerError args = none → gate Γ.policy (·.isServiceAllowed (args.getD 1 "")) = true →
      rc.world.services = pre ++ old :: post → old.name = args.getD 1 "" → (∀ t ∈ pre, t.name ≠ old.name) →
      interfaceNameError Γ name = none → (∀ t ∈ pre ++ post, name ++ "/" ++ inst ∉ t.interfaces) →
      ((parseSection Γ fromApex args filename line rc).2.afterLines Γ
        (before ++ (n, ["interface", name, inst]) :: after)).service = some s →
      endError Γ filename s (some old) = none →
      let begun := (parseSection Γ fromApex args filename line rc).2
      (parseLineSection Γ ["interface", name, inst] n (begun.afterLines Γ before)).1 = .ok () ∧
        (endSection Γ (begun.afterLines Γ (before ++ (n, ["interface", name, inst]) :: after))).2.world.find
          (.interface (name ++ "/" ++ inst)) = some s := by
  intro h
  obtain ⟨haccepted, -⟩ := h {} false ["service", "s", "/odm/bin/s"] "/odm/s.rc" 1 3 [(2, ["override"])] [] "aidl" "a"
    (listOfOne interfaceHolder) [] [] interfaceHolder (overridingService []) (by decide) (by decide) rfl rfl (by simp)
    (by decide) (by simp) (by decide) (by decide)
  have hrefused : (parseLineSection {} ["interface", "aidl", "a"] 3
      ((parseSection {} false ["service", "s", "/odm/bin/s"] "/odm/s.rc" 1 (listOfOne interfaceHolder)).2.afterLines {}
        [(2, ["override"])])).1.isOk = false := by decide
  rw [haccepted] at hrefused
  cases hrefused

end Innit
