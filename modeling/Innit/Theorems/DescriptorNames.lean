import Mathlib.Data.List.Nodup
import Innit.Descriptors
import Innit.Lemmas.OptionNumbers

/-!
# The variables of the descriptors

The parser refuses a socket or a file that the service already has, by its name; the child finds a descriptor by a variable, and the
name of the variable keeps only the letters and digits of that name. So two descriptors of one kind may share a variable, and the
child finds the number of the last one.
-/

namespace Innit

open ServiceParser

/-- The names differ at most where neither has a letter or a digit. -/
def Blurred (m n : String) : Prop :=
  List.Forall₂ (fun c d => c = d ∨ isAlnum c = false ∧ isAlnum d = false) m.toList n.toList

/-- The variables of the descriptors a service asks for. -/
def Service.variables (s : Service) : List String :=
  s.sockets.map (fun d => publishedName (androidSocketEnvPrefix ++ d.name)) ++
    s.files.map (fun d => publishedName (androidFileEnvPrefix ++ d.name))

namespace ServiceParser

/-- The socket of a line, if it is a well-formed `socket` line. -/
def socketName (Γ : Ctx) (args : List String) : Option String :=
  match serviceParserMap.find args with
  | .ok .socket => (socketDescriptor Γ args).toOption.map (·.name)
  | _ => none

/-- The path of a `file` line with a type and an absolute path. -/
def checkedPath (E : OptionEnv) (args : List String) : Option String :=
  if args.getD 2 "" ≠ "r" ∧ args.getD 2 "" ≠ "w" ∧ args.getD 2 "" ≠ "rw" then none
  else match expandProps E.ctx.vendorApi E.prop (args.getD 1 "") with
    | .error _ => none
    | .ok name => if name.toList.head? ≠ some '/' || hasInfix "../" name then none else some name

/-- The file of a line, if it is a well-formed `file` line. -/
def fileName (E : OptionEnv) (args : List String) : Option String :=
  match serviceParserMap.find args with
  | .ok .file => checkedPath E args
  | _ => none

/-- No two well-formed lines of one kind ask for different names that differ only where neither has a letter or a digit. -/
structure NamesApart (E : OptionEnv) (lines : List (List String)) : Prop where
  sockets : ∀ m ∈ lines.filterMap (socketName E.ctx), ∀ n ∈ lines.filterMap (socketName E.ctx), Blurred m n → m = n
  files : ∀ m ∈ lines.filterMap (fileName E), ∀ n ∈ lines.filterMap (fileName E), Blurred m n → m = n

end ServiceParser

namespace DescriptorNamesAux

variable {E : OptionEnv}

/-! ## The names of the variables -/

theorem ne_of_isAlnum {c d : Char} (hc : isAlnum c = true) (hd : isAlnum d = false) : c ≠ d := by
  rintro rfl
  rw [hc] at hd
  cases hd

theorem publishedChar_eq_iff (c d : Char) :
    (if isAlnum c then c else '_') = (if isAlnum d then d else '_') ↔ c = d ∨ isAlnum c = false ∧ isAlnum d = false := by
  have hbar : isAlnum '_' = false := by decide
  cases hc : isAlnum c <;> cases hd : isAlnum d
  · simp
  · simp [(ne_of_isAlnum hd hc).symm, (ne_of_isAlnum hd hbar).symm]
  · simp [ne_of_isAlnum hc hd, ne_of_isAlnum hc hbar]
  · simp

/-- Two names share a variable exactly when they differ at most where neither has a letter or a digit. -/
theorem publishedName_eq_iff (m n : String) : publishedName m = publishedName n ↔ Blurred m n := by
  unfold publishedName Blurred
  rw [String.ofList_inj, ← List.forall₂_eq_eq_eq, List.forall₂_map_left_iff, List.forall₂_map_right_iff]
  simp only [publishedChar_eq_iff]

theorem publishedName_append (p n : String) : publishedName (p ++ n) = publishedName p ++ publishedName n := by
  unfold publishedName
  rw [String.toList_append, List.map_append, String.ofList_append]

theorem variable_eq_iff (p m n : String) : publishedName (p ++ m) = publishedName (p ++ n) ↔ Blurred m n := by
  rw [publishedName_append, publishedName_append, String.append_right_inj, publishedName_eq_iff]

/-- A socket and a file never share a variable. -/
theorem kinds_apart (m n : String) : publishedName (androidSocketEnvPrefix ++ m) ≠ publishedName (androidFileEnvPrefix ++ n) := by
  intro h
  have hchars := congrArg (fun v => v.toList.take 9) h
  rw [publishedName_append, publishedName_append, String.toList_append, String.toList_append,
    List.take_append_of_le_length (by decide), List.take_append_of_le_length (by decide)] at hchars
  exact absurd hchars (by decide)

/-- Different names have different variables when none is blurred into another. -/
theorem nodup_variables_iff {p : String} {ns : List String} (hns : ns.Nodup) :
    (ns.map (fun n => publishedName (p ++ n))).Nodup ↔ ∀ m ∈ ns, ∀ n ∈ ns, Blurred m n → m = n := by
  rw [List.nodup_map_iff_inj_on hns]
  simp only [variable_eq_iff]

/-! ## The names after the lines -/

/-- A line without a name, or one whose name is there, leaves the names; another adds its own. -/
def addName (ns : List String) : Option String → List String
  | none => ns
  | some n => if n ∈ ns then ns else ns ++ [n]

theorem addName_nodup {ns : List String} (hns : ns.Nodup) (o : Option String) : (addName ns o).Nodup := by
  unfold addName
  split
  · exact hns
  · split
    · exact hns
    · next hn =>
      rw [← List.concat_eq_append]
      exact hns.concat hn

theorem mem_addName {ns : List String} {o : Option String} {m : String} : m ∈ addName ns o ↔ m ∈ ns ∨ o = some m := by
  unfold addName
  split
  · simp
  · split
    · next n hn =>
      refine ⟨Or.inl, fun h => h.elim id fun h => ?_⟩
      cases h
      exact hn
    · simp [eq_comm]

/-- The names a service has after some lines, each with the effect of `addName`: they differ, and are those of the lines. -/
theorem names_afterLines (names : Service → List String) {name : List String → Option String}
    (hstep : ∀ args s, names (parseOptionLine E args s).2 = addName (names s) (name args)) (lines : List (List String)) {s : Service}
    (hs : (names s).Nodup) :
    (names (s.afterLines E lines)).Nodup ∧
      ∀ m, m ∈ names (s.afterLines E lines) ↔ m ∈ names s ∨ m ∈ lines.filterMap name := by
  induction lines generalizing s with
  | nil => exact ⟨hs, fun m => by simp [Service.afterLines]⟩
  | cons args lines ih =>
    have hnext : (names (parseOptionLine E args s).2).Nodup := hstep args s ▸ addName_nodup hs _
    obtain ⟨hnodup, hmem⟩ := ih hnext
    refine ⟨hnodup, fun m => ?_⟩
    change m ∈ names ((parseOptionLine E args s).2.afterLines E lines) ↔ _
    rw [hmem, hstep, mem_addName, or_assoc]
    simp only [List.mem_filterMap, List.mem_cons, exists_eq_or_imp]

/-- No option but `socket` and `file` writes the descriptors. -/
theorem descriptor_rule (E : OptionEnv) : WriteRule E (fun s s' => s'.descriptorSide = s.descriptorSide) where
  trans := fun h₁ h₂ => h₂.trans h₁
  other := fun _ _ h => h
  restartPeriod := fun _ _ _ _ => rfl
  timeoutPeriod := fun _ _ _ _ => rfl
  limitInBytes := fun _ _ _ _ => rfl
  limitPercent := fun _ _ _ _ => rfl
  critical := fun _ _ _ _ _ => rfl
  interface := fun _ _ _ => rfl
  rebootOnFailure := fun _ _ _ => rfl

theorem parseSocket_files (args : List String) (s : Service) : (parseSocket E.ctx args s).2.files = s.files := by
  unfold parseSocket
  split
  · rfl
  · split <;> rfl

theorem parseFile_sockets (args : List String) (s : Service) : (parseFile E args s).2.sockets = s.sockets := by
  unfold parseFile
  dsimp only
  split
  · rfl
  · split
    · rfl
    · split
      · rfl
      · split <;> rfl

theorem parseSocket_sockets (args : List String) (s : Service) :
    (parseSocket E.ctx args s).2.sockets.map (·.name) =
      addName (s.sockets.map (·.name)) ((socketDescriptor E.ctx args).toOption.map (·.name)) := by
  unfold parseSocket
  cases socketDescriptor E.ctx args with
  | error e => rfl
  | ok d =>
    have hold : s.sockets.any (·.name = d.name) = true ↔ d.name ∈ s.sockets.map (·.name) := by simp
    simp only [Except.toOption, Option.map_some, addName, hold]
    split
    · rfl
    · simp [accept]

theorem parseFile_files (args : List String) (s : Service) :
    (parseFile E args s).2.files.map (·.name) = addName (s.files.map (·.name)) (checkedPath E args) := by
  unfold parseFile checkedPath
  dsimp only
  split
  · rfl
  · cases expandProps E.ctx.vendorApi E.prop (args.getD 1 "") with
    | error e => rfl
    | ok name =>
      have hold : s.files.any (·.name = name) = true ↔ name ∈ s.files.map (·.name) := by simp
      dsimp only
      split
      · rfl
      · simp only [addName, hold]
        split
        · rfl
        · simp [accept]

theorem descriptors_other (args : List String) (s : Service) {option : ServiceOption} (hfile : option ≠ .file)
    (hsocket : option ≠ .socket) :
    (parseOption E args s option).2.sockets = s.sockets ∧ (parseOption E args s option).2.files = s.files := by
  have hside := (descriptor_rule E).parseOption args s option (fun h => absurd h hfile) (fun h => absurd h hsocket)
  exact ⟨congrArg Prod.fst hside, congrArg Prod.snd hside⟩

theorem sockets_parseOptionLine (args : List String) (s : Service) :
    (parseOptionLine E args s).2.sockets.map (·.name) = addName (s.sockets.map (·.name)) (socketName E.ctx args) := by
  unfold parseOptionLine socketName
  cases serviceParserMap.find args with
  | error e => rfl
  | ok option =>
    by_cases hsocket : option = .socket
    · subst hsocket
      exact parseSocket_sockets args s
    by_cases hfile : option = .file
    · subst hfile
      exact congrArg (List.map (·.name)) (parseFile_sockets args s)
    dsimp only
    rw [(descriptors_other args s hfile hsocket).1]
    split
    · next h => exact absurd (Except.ok.inj h) hsocket
    · rfl

theorem files_parseOptionLine (args : List String) (s : Service) :
    (parseOptionLine E args s).2.files.map (·.name) = addName (s.files.map (·.name)) (fileName E args) := by
  unfold parseOptionLine fileName
  cases serviceParserMap.find args with
  | error e => rfl
  | ok option =>
    by_cases hfile : option = .file
    · subst hfile
      exact parseFile_files args s
    by_cases hsocket : option = .socket
    · subst hsocket
      exact congrArg (List.map (·.name)) (parseSocket_files args s)
    dsimp only
    rw [(descriptors_other args s hfile hsocket).2]
    split
    · next h => exact absurd (Except.ok.inj h) hfile
    · rfl

/-- The names of a section: those of its well-formed lines, each once. -/
theorem names_section (fromApex : Bool) (filename : String) (header : List String) (lines : List (List String)) :
    let s := (newService E.ctx fromApex filename header).afterLines E lines
    ((s.sockets.map (·.name)).Nodup ∧ ∀ m, m ∈ s.sockets.map (·.name) ↔ m ∈ lines.filterMap (socketName E.ctx)) ∧
      (s.files.map (·.name)).Nodup ∧ ∀ m, m ∈ s.files.map (·.name) ↔ m ∈ lines.filterMap (fileName E) := by
  intro s
  obtain ⟨hsockets, hsocket⟩ := names_afterLines (fun s => s.sockets.map (·.name)) sockets_parseOptionLine lines
    (s := newService E.ctx fromApex filename header) List.nodup_nil
  obtain ⟨hfiles, hfile⟩ := names_afterLines (fun s => s.files.map (·.name)) files_parseOptionLine lines
    (s := newService E.ctx fromApex filename header) List.nodup_nil
  exact ⟨⟨hsockets, fun m => (hsocket m).trans (by simp [newService])⟩, hfiles, fun m => (hfile m).trans (by simp [newService])⟩

theorem nodup_variables_section (fromApex : Bool) (filename : String) (header : List String) (lines : List (List String)) :
    ((newService E.ctx fromApex filename header).afterLines E lines).variables.Nodup ↔ NamesApart E lines := by
  obtain ⟨⟨hsockets, hsocket⟩, hfiles, hfile⟩ := names_section (E := E) fromApex filename header lines
  generalize (newService E.ctx fromApex filename header).afterLines E lines = s at *
  have hsplit : s.variables = (s.sockets.map (·.name)).map (fun n => publishedName (androidSocketEnvPrefix ++ n)) ++
      (s.files.map (·.name)).map (fun n => publishedName (androidFileEnvPrefix ++ n)) := by
    unfold Service.variables
    rw [List.map_map, List.map_map]
    rfl
  have hkinds : ∀ v ∈ (s.sockets.map (·.name)).map (fun n => publishedName (androidSocketEnvPrefix ++ n)),
      ∀ w ∈ (s.files.map (·.name)).map (fun n => publishedName (androidFileEnvPrefix ++ n)), v ≠ w := by
    intro v hv w hw
    obtain ⟨m, -, rfl⟩ := List.mem_map.1 hv
    obtain ⟨n, -, rfl⟩ := List.mem_map.1 hw
    exact kinds_apart m n
  rw [hsplit, List.nodup_append, nodup_variables_iff hsockets, nodup_variables_iff hfiles]
  simp only [hsocket, hfile]
  exact ⟨fun ⟨hs, hf, _⟩ => ⟨hs, hf⟩, fun h => ⟨h.sockets, h.files, hkinds⟩⟩

/-! ## What the child finds -/

/-- The environment after some descriptors. -/
def publishAll (ds : List Descriptor) (env : Environment) : Environment := ds.foldl (fun env d => d.publish env) env

/-- A variable that is published no more keeps its value. -/
theorem publishAll_other {ds : List Descriptor} {v : String} (hv : v ∉ ds.map (fun d => publishedName d.name)) (env : Environment) :
    publishAll ds env v = env v := by
  induction ds generalizing env with
  | nil => rfl
  | cons d ds ih =>
    rw [List.map_cons, List.mem_cons, not_or] at hv
    refine (ih hv.2 (d.publish env)).trans ?_
    exact if_neg hv.1

/-- When the variables differ, each holds its number. -/
theorem publishAll_found {ds : List Descriptor} (hds : (ds.map (fun d => publishedName d.name)).Nodup) (env : Environment) :
    ∀ d ∈ ds, publishAll ds env (publishedName d.name) = some (toString d.fd) := by
  induction ds generalizing env with
  | nil => exact fun d hd => absurd hd List.not_mem_nil
  | cons e ds ih =>
    rw [List.map_cons, List.nodup_cons] at hds
    intro d hd
    rcases List.mem_cons.1 hd with rfl | hd
    · refine (publishAll_other hds.1 (d.publish env)).trans ?_
      exact if_pos rfl
    · exact ih hds.2 (e.publish env) d hd

/-- Two numbers are not found under one variable. -/
theorem not_found {ds : List Descriptor} {env : Environment} {m n : String} (hm : ⟨m, 3⟩ ∈ ds) (hn : ⟨n, 4⟩ ∈ ds)
    (hsame : publishedName m = publishedName n) :
    ¬∀ d ∈ ds, publishAll ds env (publishedName d.name) = some (toString d.fd) := by
  intro hfound
  have hthree := hfound _ hm
  have hfour := hfound _ hn
  rw [hsame, hfour] at hthree
  have hnumbers : toString 4 ≠ toString 3 := by decide
  exact hnumbers (Option.some.inj hthree)

/-- The variables of the descriptors that are made are among those of the service. -/
theorem variables_made (K : Opened) (s : Service) :
    ((s.descriptors K).map (fun d => publishedName d.name)).Sublist s.variables := by
  have hkind : ∀ {α : Type} (create : α → Option Descriptor) (v : α → String) (xs : List α),
      (∀ x d, create x = some d → publishedName d.name = v x) →
      ((xs.filterMap create).map (fun d => publishedName d.name)).Sublist (xs.map v) := by
    intro α create v xs hv
    induction xs with
    | nil => exact .slnil
    | cons x xs ih =>
      cases hx : create x with
      | none =>
        rw [List.filterMap_cons_none hx]
        exact ih.cons _
      | some d =>
        rw [List.filterMap_cons_some hx, List.map_cons, List.map_cons, hv x d hx]
        exact ih.cons_cons _
  unfold Service.descriptors Service.variables
  rw [List.map_append]
  refine (hkind _ _ _ fun x d hx => ?_).append (hkind _ _ _ fun x d hx => ?_)
  · obtain ⟨fd, -, rfl⟩ := Option.map_eq_some_iff.1 hx
    rfl
  · obtain ⟨fd, -, rfl⟩ := Option.map_eq_some_iff.1 hx
    rfl

/-- The kernel gives 3 to the socket or file `m`, 4 to `n`, and refuses the others. -/
def twoNumbers (m n x : String) : Option Nat := if x = m then some 3 else if x = n then some 4 else none

/-- When every number is found, whatever the kernel answers, the variables of one kind of descriptors differ. -/
theorem blurred_eq_of_found {α : Type} {s : Service} {xs : List α} {name : α → String} (p : String)
    (opened : (α → Option Nat) → Opened)
    (hmade : ∀ numbers x fd, x ∈ xs → numbers x = some fd → ⟨p ++ name x, fd⟩ ∈ s.descriptors (opened numbers))
    (hfound : ∀ K env, ∀ d ∈ s.descriptors K, s.published K env (publishedName d.name) = some (toString d.fd)) :
    ∀ m ∈ xs.map name, ∀ n ∈ xs.map name, Blurred m n → m = n := by
  intro m hm n hn hblurred
  by_contra hne
  obtain ⟨x, hx, rfl⟩ := List.mem_map.1 hm
  obtain ⟨y, hy, rfl⟩ := List.mem_map.1 hn
  have hthree := hmade (fun z => twoNumbers (name x) (name y) (name z)) x 3 hx (if_pos rfl)
  have hfour := hmade (fun z => twoNumbers (name x) (name y) (name z)) y 4 hy ((if_neg (Ne.symm hne)).trans (if_pos rfl))
  exact not_found hthree hfour ((variable_eq_iff _ _ _).2 hblurred) (hfound _ fun _ => none)

theorem sockets_of_found {s : Service}
    (hfound : ∀ K env, ∀ d ∈ s.descriptors K, s.published K env (publishedName d.name) = some (toString d.fd)) :
    ∀ m ∈ s.sockets.map (·.name), ∀ n ∈ s.sockets.map (·.name), Blurred m n → m = n := by
  refine blurred_eq_of_found androidSocketEnvPrefix (fun numbers => ⟨numbers, fun _ => none⟩) ?_ hfound
  intro numbers d fd hd hfd
  exact List.mem_append_left _ (List.mem_filterMap.2 ⟨d, hd, by simp [SocketDescriptor.create, hfd]⟩)

theorem files_of_found {s : Service}
    (hfound : ∀ K env, ∀ d ∈ s.descriptors K, s.published K env (publishedName d.name) = some (toString d.fd)) :
    ∀ m ∈ s.files.map (·.name), ∀ n ∈ s.files.map (·.name), Blurred m n → m = n := by
  refine blurred_eq_of_found androidFileEnvPrefix (fun numbers => ⟨fun _ => none, numbers⟩) ?_ hfound
  intro numbers d fd hd hfd
  exact List.mem_append_right _ (List.mem_filterMap.2 ⟨d, hd, by simp [FileDescriptor.create, hfd]⟩)

end DescriptorNamesAux

open DescriptorNamesAux

/-- The descriptors of a service section have different variables exactly when no two of its well-formed lines of one kind ask for
different names that differ only where neither has a letter or a digit. And then only, whatever descriptors can be made, the child
finds the number of each under its variable. -/
theorem variables_nodup_iff (E : OptionEnv) (fromApex : Bool) (filename : String) (header : List String)
    (lines : List (List String)) :
    let s := (newService E.ctx fromApex filename header).afterLines E lines
    (s.variables.Nodup ↔ NamesApart E lines) ∧
      ((∀ K env, ∀ d ∈ s.descriptors K, s.published K env (publishedName d.name) = some (toString d.fd)) ↔
        NamesApart E lines) := by
  intro s
  have hnodup := nodup_variables_section (E := E) fromApex filename header lines
  refine ⟨hnodup, fun hfound => ?_, fun hapart K env => ?_⟩
  · obtain ⟨⟨-, hsocket⟩, -, hfile⟩ := names_section (E := E) fromApex filename header lines
    exact ⟨by simpa only [← hsocket] using sockets_of_found hfound, by simpa only [← hfile] using files_of_found hfound⟩
  · exact publishAll_found ((variables_made K s).nodup (hnodup.2 hapart)) env

/-- The sockets `a-b` and `a.b` of one service are both accepted, and share their variable. -/
theorem variables_shared :
    ¬∀ (E : OptionEnv) (fromApex : Bool) (filename : String) (header : List String) (lines : List (List String)),
      ((newService E.ctx fromApex filename header).afterLines E lines).variables.Nodup := by
  intro h
  have hnodup := h { ctx := {}, services := [], prop := fun _ => "" } false "/init.rc" ["service", "s", "/bin/s"]
    [["socket", "a-b", "stream", "0660"], ["socket", "a.b", "stream", "0660"]]
  have hsame : ((newService {} false "/init.rc" ["service", "s", "/bin/s"]).afterLines
      { ctx := {}, services := [], prop := fun _ => "" }
      [["socket", "a-b", "stream", "0660"], ["socket", "a.b", "stream", "0660"]]).variables =
        ["ANDROID_SOCKET_a_b", "ANDROID_SOCKET_a_b"] := by decide
  rw [hsame] at hnodup
  exact absurd hnodup (by decide)

end Innit
