import Mathlib.Data.List.TakeWhile
import Innit.SubcontextProto
import Innit.Theorems.CommandGate

/-!
# How often the arguments of a command are expanded

A builtin that is not run in the child gets its arguments expanded by `RunBuiltinFunction`. With a subcontext the child has
expanded them before, so that they are expanded twice.
-/

namespace Innit

open CallsAux BuiltinsAux

/-- Both fail, or both are the same words. -/
def SameOutcome (r r' : Result (List String)) : Prop :=
  match r, r' with
  | .ok words, .ok words' => words = words'
  | .error _, .error _ => True
  | _, _ => False

/-- The first word is left as it is, and each of the others is expanded once; it fails where one cannot be expanded. -/
def ExpandedOnce (vendorApi : Nat) (prop : String → String) (args : List String) (r : Result (List String)) : Prop :=
  match r with
  | .ok words => ∃ verb rest expanded, args = verb :: rest ∧ words = verb :: expanded ∧
    List.Forall₂ (fun arg word => expandProps vendorApi prop arg = .ok word) rest expanded
  | .error _ => ∃ arg ∈ args.tail, ∃ e, expandProps vendorApi prop arg = .error e

/-- Whether the loop of `ExpandProps` puts a `$` into the text: for a `$$`, or with a value. -/
def writesDollarFrom (vendorApi : Nat) (prop : String → String) (src : String) : Nat → List Char → Bool
  | 0, _ => false
  | fuel + 1, cs =>
    match cs.dropWhile (· ≠ '$') with
    | [] => false
    | [_] => false
    | _ :: '$' :: _ => true
    | _ :: rest =>
      match readReference vendorApi src rest with
      | .error _ => false
      | .ok ((name, default), rest) => match referenceValue prop src name default with
        | .error _ => false
        | .ok value => value.contains '$' || writesDollarFrom vendorApi prop src fuel rest

/-- An argument has a `$$`, or uses a property value or a default with a `$`. -/
def writesDollar (vendorApi : Nat) (prop : String → String) (arg : String) : Bool :=
  writesDollarFrom vendorApi prop arg arg.toList.length arg.toList

/-- An argument whose expansion is its own expansion. -/
def ExpandsToItself (vendorApi : Nat) (prop : String → String) (arg : String) : Prop :=
  ∃ word, expandProps vendorApi prop arg = .ok word ∧ expandProps vendorApi prop word = .ok word

/-- A message that gets through: it is not empty, and fits the buffer. -/
def Fits (message : String) : Prop := message ≠ "" ∧ message.length ≤ kBufferSize

/-- The request to expand words, and the reply of the child, get through. -/
def ExpandArgsFits (codec : SubcontextCodec) (vendorApi : Nat) (prop : String → String) (args : List String) : Prop :=
  Fits (codec.serializeCommand (.expandArgsCommand args)) ∧
    Fits (codec.serializeReply (SubcontextProcess.expandArgs { vendorApi := vendorApi, getProperty := prop } args {}))

/-- A command calls its function with these words, or fails with this error before it does. -/
def Command.CalledWith (Γ : Ctx) (subcontext : Option String) (c : Command) (w : World) (r : Result (List String)) : Prop :=
  ∃ w', (∀ e, r = .error e → c.invokeFunc Γ subcontext w = (.error e, w')) ∧
    ∀ words, r = .ok words →
      c.invokeFunc Γ subcontext w = (runFunction words (subcontext.getD kInitContext) c.func).run (World.handle Γ) w'

namespace ArgsExpandedAux

variable {Γ : Ctx} {vendorApi : Nat} {prop : String → String}

/-! ### Lists of words -/

theorem expandWords_eq_ok {args words : List String} :
    expandWords vendorApi prop args = .ok words ↔
      List.Forall₂ (fun arg word => expandProps vendorApi prop arg = .ok word) args words := by
  induction args generalizing words with
  | nil =>
    rw [List.forall₂_nil_left_iff]
    exact ⟨fun h => (Except.ok.inj h).symm, fun h => congrArg Except.ok h.symm⟩
  | cons arg args ih =>
    rw [List.forall₂_cons_left_iff, expandWords]
    cases harg : expandProps vendorApi prop arg with
    | error e => exact ⟨fun h => (by cases h), fun ⟨_, _, h, _⟩ => (by cases h)⟩
    | ok word =>
      dsimp only
      cases hrest : expandWords vendorApi prop args with
      | error e =>
        refine ⟨fun h => (by cases h), fun ⟨_, rest, _, h, _⟩ => ?_⟩
        rw [ih.mpr h] at hrest
        cases hrest
      | ok rest =>
        constructor
        · intro h
          exact ⟨word, rest, rfl, ih.mp hrest, (Except.ok.inj h).symm⟩
        · rintro ⟨word', rest', hword, h, rfl⟩
          rw [ih.mpr h] at hrest
          rw [Except.ok.inj hword, Except.ok.inj hrest]

theorem expandWords_eq_error {args : List String} :
    (∃ e, expandWords vendorApi prop args = .error e) ↔ ∃ arg ∈ args, ∃ e, expandProps vendorApi prop arg = .error e := by
  induction args with
  | nil => exact ⟨fun ⟨_, h⟩ => (by cases h), fun ⟨_, h, _⟩ => (List.not_mem_nil h).elim⟩
  | cons arg args ih =>
    rw [expandWords, List.exists_mem_cons_iff]
    cases harg : expandProps vendorApi prop arg with
    | error e => exact ⟨fun _ => .inl ⟨e, rfl⟩, fun _ => ⟨e, rfl⟩⟩
    | ok word =>
      dsimp only
      rw [← ih]
      cases expandWords vendorApi prop args with
      | error e => exact ⟨fun _ => .inr ⟨e, rfl⟩, fun _ => ⟨e, rfl⟩⟩
      | ok rest => exact ⟨fun ⟨_, h⟩ => (by cases h), fun h => h.elim (fun ⟨_, h⟩ => (by cases h)) (fun ⟨_, h⟩ => (by cases h))⟩

/-! ### One argument -/

/-- A text without `$` is its own expansion. -/
theorem expandProps_of_no_dollar {word : String} (h : '$' ∉ word.toList) : expandProps vendorApi prop word = .ok word := by
  have hdrop : word.toList.dropWhile (· ≠ '$') = [] := by
    rw [List.dropWhile_eq_nil_iff]
    intro c hc
    rw [decide_eq_true_eq]
    rintro rfl
    exact h hc
  unfold expandProps
  cases hlen : word.toList.length with
  | zero =>
    rw [expandFrom, ← List.eq_nil_of_length_eq_zero hlen, String.ofList_toList]
  | succ n =>
    rw [expandFrom, hdrop, List.nil_append, String.ofList_toList]

/-- The text before a `$` has none. -/
theorem not_mem_dollar_takeWhile (cs : List Char) : '$' ∉ cs.takeWhile (· ≠ '$') := by
  intro h
  have hne := List.mem_takeWhile_imp h
  rw [decide_eq_true_eq] at hne
  exact hne rfl

theorem mem_dollar_expandFrom (src : String) (fuel : Nat) (cs dst : List Char) {word : String}
    (h : expandFrom vendorApi prop src fuel cs dst = .ok word) :
    '$' ∈ word.toList ↔ '$' ∈ dst ∨ writesDollarFrom vendorApi prop src fuel cs = true := by
  induction fuel generalizing cs dst with
  | zero =>
    cases h
    simp [writesDollarFrom]
  | succ fuel ih =>
    have htake := not_mem_dollar_takeWhile cs
    unfold expandFrom at h
    split at h
    · next hdrop =>
      have hcs : cs.takeWhile (· ≠ '$') = cs := by
        conv_rhs => rw [← List.takeWhile_append_dropWhile (p := (· ≠ '$')) (l := cs), hdrop, List.append_nil]
      rw [hcs] at htake
      cases h
      rw [writesDollarFrom, hdrop]
      simp only [String.toList_ofList, List.mem_append, htake, or_false, Bool.false_eq_true]
    · next hdrop =>
      cases h
      rw [writesDollarFrom, hdrop]
      simp only [String.toList_ofList, List.mem_append, htake, or_false, Bool.false_eq_true]
    · next rest hdrop =>
      rw [writesDollarFrom, hdrop, ih _ _ h]
      simp only [List.mem_append, List.mem_singleton, or_true, true_or]
    · next c rest hne hdollar hdrop =>
      rw [writesDollarFrom, hdrop]
      split
      · next heq => cases heq
      · next heq => exact absurd (List.cons.inj heq).2 hne
      · next heq => exact absurd (List.cons.inj heq).2 (hdollar _)
      · next heq =>
        obtain ⟨-, rfl⟩ := List.cons.inj heq
        cases hreference : readReference vendorApi src rest with
        | error e =>
          rw [hreference] at h
          cases h
        | ok reference =>
          obtain ⟨⟨name, default⟩, tail⟩ := reference
          cases hvalue : referenceValue prop src name default with
          | error e =>
            simp only [hreference, hvalue] at h
            cases h
          | ok value =>
            simp only [hreference, hvalue] at h
            rw [ih _ _ h]
            simp only [hvalue, List.mem_append, htake, or_false, Bool.or_eq_true, List.contains_iff_mem, or_assoc]

/-- The expansion of an argument is its own expansion, where there is no `$` in it, and else by chance. -/
theorem expandsAgain_iff {arg word : String} (h : expandProps vendorApi prop arg = .ok word) :
    expandProps vendorApi prop word = .ok word ↔
      writesDollar vendorApi prop arg = false ∨ ExpandsToItself vendorApi prop arg := by
  constructor
  · intro hword
    exact .inr ⟨word, h, hword⟩
  · rintro (hno | ⟨word', hword, hself⟩)
    · refine expandProps_of_no_dollar ?_
      rw [mem_dollar_expandFrom arg _ _ _ h]
      rintro (hmem | hwrites)
      · exact List.not_mem_nil hmem
      · exact Bool.false_ne_true (hno.symm.trans hwrites)
    · rw [h] at hword
      rw [Except.ok.inj hword]
      exact hself

theorem expandWords_again {args words : List String}
    (h : List.Forall₂ (fun arg word => expandProps vendorApi prop arg = .ok word) args words) :
    expandWords vendorApi prop words = .ok words ↔
      ∀ arg ∈ args, writesDollar vendorApi prop arg = false ∨ ExpandsToItself vendorApi prop arg := by
  rw [expandWords_eq_ok]
  induction h with
  | nil => simp
  | cons harg hargs ih => rw [List.forall₂_cons, List.forall_mem_cons, ih, expandsAgain_iff harg]

/-! ### Commands -/

variable (vendorApi prop) in
/-- A verb of the map is its own expansion. -/
theorem verb_expands {verb : String} {args : List String} {v : BuiltinFunctionMapValue}
    (hfind : builtinFunctionMap.find (verb :: args) = .ok v) : expandProps vendorApi prop verb = .ok verb := by
  have hkeys : ∀ e ∈ builtinFunctionMap, '$' ∉ e.1.toList := by decide +kernel
  unfold KeywordMap.find at hfind
  dsimp only at hfind
  cases hentry : List.find? (fun e => decide (e.1 = verb)) builtinFunctionMap with
  | none =>
    rw [hentry] at hfind
    cases hfind
  | some e =>
    have hverb := List.find?_some hentry
    rw [decide_eq_true_eq] at hverb
    subst hverb
    exact expandProps_of_no_dollar (hkeys e (List.mem_of_find?_eq_some hentry))

/-- `Command.words` is what the function is called with. -/
theorem calledWith_words {c : Command} (hinit : c.executeInSubcontext = false) (subcontext : Option String) (w : World) :
    c.CalledWith Γ subcontext w (c.words Γ subcontext w) := by
  have hrun : ∀ (args : List String) (context : String) (w' : World), w'.g.sys.getProperty = w.g.sys.getProperty →
      (∀ e, (expandWords Γ.vendorApi w.g.sys.getProperty args.tail).map (args.headD "" :: ·) = .error e →
        runBuiltinFunction Γ c.func args context w' = (.error e, w')) ∧
      ∀ words, (expandWords Γ.vendorApi w.g.sys.getProperty args.tail).map (args.headD "" :: ·) = .ok words →
        runBuiltinFunction Γ c.func args context w' = (runFunction words context c.func).run (World.handle Γ) w' := by
    intro args context w' hprop
    rw [runBuiltinFunction, hprop]
    cases expandWords Γ.vendorApi w.g.sys.getProperty args.tail with
    | error e => exact ⟨fun e' he => (by cases he; rfl), fun _ h => (by cases h)⟩
    | ok words => exact ⟨fun _ h => (by cases h), fun words' hw => (by cases hw; rfl)⟩
  cases subcontext with
  | none => exact ⟨w, hrun c.args kInitContext w rfl⟩
  | some context =>
    have hprop : (subcontextExpandArgs Γ context c.args w).2.g.sys.getProperty = w.g.sys.getProperty := by
      unfold subcontextExpandArgs
      dsimp only
      split <;> rfl
    refine ⟨(subcontextExpandArgs Γ context c.args w).2, ?_⟩
    unfold Command.invokeFunc Command.words
    dsimp only
    rw [hinit, if_neg Bool.false_ne_true]
    generalize subcontextExpandArgs Γ context c.args w = r at hprop ⊢
    obtain ⟨r, w₁⟩ := r
    cases r with
    | error e => exact ⟨fun e' he => (by cases he; rfl), fun _ h => (by cases h)⟩
    | ok args => exact hrun args context w₁ hprop

/-- Where the child answers, the words are the expansions expanded again. -/
theorem words_subcontext {context verb : String} {args : List String} {line : Nat} {func : BuiltinFunction} {w : World}
    (hread : ∀ name, Γ.canRead context name = true)
    (hverb : expandProps Γ.vendorApi w.g.sys.getProperty verb = .ok verb)
    (hok : (Γ.kernel w.g.sys.tick (.subcontextExpandArgs (verb :: args))).ok = true) :
    Command.words Γ (some context) ⟨func, false, verb :: args, line⟩ w =
      match expandWords Γ.vendorApi w.g.sys.getProperty args with
      | .error e => .error e
      | .ok words => (expandWords Γ.vendorApi w.g.sys.getProperty words).map (verb :: ·) := by
  have hprop : (fun name => if Γ.canRead context name then w.g.sys.getProperty name else "") = w.g.sys.getProperty := by
    funext name
    rw [hread name, if_pos rfl]
  simp only [Command.words, subcontextExpandArgs, Sys.ask, hok, if_true, hprop, expandWords, hverb]
  cases expandWords Γ.vendorApi w.g.sys.getProperty args <;> rfl

/-- Where it does not, the command fails. -/
theorem words_unanswered {context : String} {c : Command} {w : World}
    (hno : ¬(Γ.kernel w.g.sys.tick (.subcontextExpandArgs c.args)).ok = true) :
    ∃ e, c.words Γ (some context) w = .error e := by
  simp only [Command.words, subcontextExpandArgs, Sys.ask, hno]
  exact ⟨_, rfl⟩

/-! ### The call of the child -/

theorem sendMessage_short {message : String} (h : message.length ≤ kBufferSize) : sendMessage {} message = .ok () := by
  simp [sendMessage, h]

theorem sendMessage_long {message : String} (h : ¬message.length ≤ kBufferSize) :
    sendMessage {} message = .error (Error "Serialized message too long to send") := by
  simp [sendMessage, Nat.lt_of_not_le h]

theorem readMessage_empty : readMessage (.ok "") = .error (Error "") := rfl

theorem readMessage_fits {message : String} (h : Fits message) : readMessage (.ok message) = .ok message := by
  unfold readMessage
  dsimp only
  rw [if_neg h.1, List.take_of_length_le h.2, String.ofList_toList]

end ArgsExpandedAux

open ArgsExpandedAux SubcontextSystem

/-- The steps of a call of `TransmitMessage` in which no call of the system fails. -/
def SubcontextSystem.exchange (command : SubcontextCommand) (E : ChildEnv) : List SubcontextStep :=
  [.send command {} 0, .childRead 0 none true, .childServe 0 E, .childSend 0 {}, .receive none true]

/-- Such a call returns the reply of the child exactly when both messages get through. -/
theorem exchange_answered (codec : SubcontextCodec) (command : SubcontextCommand) (E : ChildEnv) (reply : SubcontextReply)
    (hserve : SubcontextProcess.serve E command = some reply) :
    (SubcontextSystem.run codec (SubcontextSystem.exchange command E)).results = [.ok reply] ↔
      Fits (codec.serializeCommand command) ∧ Fits (codec.serializeReply reply) := by
  by_cases hlong : (codec.serializeCommand command).length ≤ kBufferSize
  case neg =>
    simp [run, exchange, step, transmitSend, sendMessage_long hlong, returns, restart,
      childRead, setFork, Fits, hlong]
  have hsend := sendMessage_short hlong
  by_cases hempty : codec.serializeCommand command = ""
  case pos =>
    rw [hempty] at hsend
    simp [run, exchange, step, transmitSend, hempty, hsend, setFork,
      childRead, readMessage_empty, transmitReceive, transmitReceived, returns, restart, Fits]
  have hrequest : Fits (codec.serializeCommand command) := ⟨hempty, hlong⟩
  by_cases hlong' : (codec.serializeReply reply).length ≤ kBufferSize
  case neg =>
    simp [run, exchange, step, transmitSend, hsend, setFork, childRead,
      readMessage_fits hrequest, codec.parseCommand_serialize, childServe, hserve, SubcontextProcess.withShutdown, childSend,
      sendMessage_long hlong', readMessage_empty, transmitReceive, transmitReceived, returns, restart, Fits, hlong']
  have hsend' := sendMessage_short hlong'
  by_cases hempty' : codec.serializeReply reply = ""
  case pos =>
    rw [hempty'] at hsend'
    simp [run, exchange, step, transmitSend, hsend, setFork, childRead,
      readMessage_fits hrequest, codec.parseCommand_serialize, childServe, hserve, SubcontextProcess.withShutdown, childSend,
      hempty', hsend', readMessage_empty, transmitReceive, transmitReceived, returns, restart, Fits]
  have hreply : Fits (codec.serializeReply reply) := ⟨hempty', hlong'⟩
  simp [run, exchange, step, transmitSend, hsend, setFork, childRead,
    readMessage_fits, hrequest, hreply, codec.parseCommand_serialize, childServe, hserve, SubcontextProcess.withShutdown,
    childSend, hsend', transmitReceive, transmitReceived, codec.parseReply_serialize, returns]

/-- When the arguments of a command that is not run in the child are expanded once. The command calls its function with
`Command.words`. Without a subcontext that is the verb and every argument expanded once. With one, whose properties can all be
read and whose child answers the messages that get through, it is the same if and only if some argument cannot be expanded at
all, or the messages get through and no expansion has a `$` in it, other than one that expands to itself. -/
theorem args_expanded_once (codec : SubcontextCodec) (Γ : Ctx) (context verb : String) (args : List String) (line : Nat)
    (v : BuiltinFunctionMapValue) (w : World) (hfind : builtinFunctionMap.find (verb :: args) = .ok v)
    (hinit : v.runInSubcontext = false) (hread : ∀ name, Γ.canRead context name = true)
    (hchild : (Γ.kernel w.g.sys.tick (.subcontextExpandArgs (verb :: args))).ok = true ↔
      ExpandArgsFits codec Γ.vendorApi w.g.sys.getProperty (verb :: args)) :
    let c : Command := ⟨.builtin v.function, v.runInSubcontext, verb :: args, line⟩
    (∀ subcontext, c.CalledWith Γ subcontext w (c.words Γ subcontext w)) ∧
      ExpandedOnce Γ.vendorApi w.g.sys.getProperty c.args (c.words Γ none w) ∧
      (SameOutcome (c.words Γ (some context) w) (c.words Γ none w) ∧
          ExpandedOnce Γ.vendorApi w.g.sys.getProperty c.args (c.words Γ (some context) w) ↔
        (∃ arg ∈ args, ∃ e, expandProps Γ.vendorApi w.g.sys.getProperty arg = .error e) ∨
          (ExpandArgsFits codec Γ.vendorApi w.g.sys.getProperty (verb :: args) ∧
            ∀ arg ∈ args, writesDollar Γ.vendorApi w.g.sys.getProperty arg = false ∨
              ExpandsToItself Γ.vendorApi w.g.sys.getProperty arg)) := by
  intro c
  refine ⟨fun subcontext => calledWith_words hinit subcontext w, ?_⟩
  have hverb := verb_expands Γ.vendorApi w.g.sys.getProperty hfind
  have hplain : c.words Γ none w = (expandWords Γ.vendorApi w.g.sys.getProperty args).map (verb :: ·) := rfl
  have hc : c = ⟨.builtin v.function, false, verb :: args, line⟩ := by rw [← hinit]
  rw [hplain]
  cases hexpand : expandWords Γ.vendorApi w.g.sys.getProperty args with
  | error e =>
    have hfails := expandWords_eq_error.mp ⟨e, hexpand⟩
    have herror : ∃ e', c.words Γ (some context) w = .error e' := by
      by_cases hok : (Γ.kernel w.g.sys.tick (.subcontextExpandArgs (verb :: args))).ok = true
      · rw [hc, words_subcontext hread hverb hok, hexpand]
        exact ⟨e, rfl⟩
      · exact words_unanswered hok
    obtain ⟨e', he'⟩ := herror
    rw [he']
    exact ⟨hfails, ⟨fun _ => .inl hfails, fun _ => ⟨trivial, hfails⟩⟩⟩
  | ok words =>
    have hone := expandWords_eq_ok.mp hexpand
    have hnone : ¬∃ arg ∈ args, ∃ e, expandProps Γ.vendorApi w.g.sys.getProperty arg = .error e := by
      rw [← expandWords_eq_error, hexpand]
      exact fun ⟨_, h⟩ => by cases h
    refine ⟨⟨verb, args, words, rfl, rfl, hone⟩, ?_⟩
    rw [or_iff_right hnone, ← expandWords_again hone, ← hchild]
    by_cases hok : (Γ.kernel w.g.sys.tick (.subcontextExpandArgs (verb :: args))).ok = true
    · rw [hc, words_subcontext hread hverb hok, hexpand]
      dsimp only
      constructor
      · rintro ⟨hsame, -⟩
        refine ⟨hok, ?_⟩
        cases hagain : expandWords Γ.vendorApi w.g.sys.getProperty words with
        | error e =>
          rw [hagain] at hsame
          exact hsame.elim
        | ok words' =>
          rw [hagain] at hsame
          rw [(List.cons.inj hsame).2]
      · rintro ⟨-, hagain⟩
        rw [hagain]
        exact ⟨rfl, verb, args, words, rfl, rfl, hone⟩
    · obtain ⟨e, he⟩ := @words_unanswered _ context c _ hok
      rw [he]
      exact ⟨fun h => h.1.elim, fun h => absurd h.1 hok⟩

/-- A vendor script that starts a service, in whose name there is nothing to expand. -/
theorem args_expanded_once_start :
    SameOutcome (Command.words {} (some "u:r:vendor_init:s0") ⟨.builtin .start, false, ["start", "adbd"], 1⟩ {})
      (.ok ["start", "adbd"]) := by
  have hargs : (argsText ["start", "adbd"]).length ≤ 22 := by
    have hstart := Lib.length_field_le '\n' "start".toList
    have hadbd := Lib.length_field_le '\n' "adbd".toList
    change (Lib.field '\n' "start".toList ++ (Lib.field '\n' "adbd".toList ++ [])).length ≤ 22
    rw [List.length_append, List.length_append]
    exact Nat.add_le_add hstart hadbd
  have hfits : ExpandArgsFits subcontextProto 30 (fun _ => "") ["start", "adbd"] := by
    have hreply : SubcontextProcess.expandArgs { vendorApi := 30, getProperty := fun _ => "" } ["start", "adbd"] {} =
        { reply := .expandArgsReply ["start", "adbd"] } := by decide
    have hfield : ∀ tag, Fits (String.ofList (Lib.field tag (argsText ["start", "adbd"]))) := by
      intro tag
      have hle := Lib.length_field_le tag (argsText ["start", "adbd"])
      refine ⟨fun h => ?_, ?_⟩
      · have hnil := congrArg String.toList h
        rw [String.toList_ofList] at hnil
        cases hnil
      · rw [String.length_ofList, kBufferSize]
        omega
    refine ⟨hfield '\x12', ?_⟩
    rw [hreply]
    change Fits (String.ofList (Lib.field '\x1a' (argsText ["start", "adbd"]) ++ []))
    rw [List.append_nil]
    exact hfield '\x1a'
  exact ((args_expanded_once subcontextProto {} "u:r:vendor_init:s0" "start" ["adbd"] 1 ⟨false, .start⟩ {} (by decide) rfl
    (fun _ => rfl) ⟨fun _ => hfits, fun _ => rfl⟩).2.2.mpr
      (.inr ⟨hfits, fun arg harg => .inl (by rw [List.mem_singleton.mp harg]; decide)⟩)).1

/-- A world in which one property holds a reference to another. -/
def nestedReference : World where
  g := { sys := { props := [("vendor.svc", "${ro.x}"), ("ro.x", "adbd")] } }

/-- In a vendor script the service started is another one than the property names: its value is taken for a text to expand. -/
theorem args_expanded_twice :
    builtinFunctionMap.find ["start", "${vendor.svc}"] = .ok ⟨false, .start⟩ ∧
      ¬SameOutcome
        (Command.words {} (some "u:r:vendor_init:s0") ⟨.builtin .start, false, ["start", "${vendor.svc}"], 1⟩
          nestedReference)
        (Command.words {} none ⟨.builtin .start, false, ["start", "${vendor.svc}"], 1⟩ nestedReference) := by
  have htwice : Command.words {} (some "u:r:vendor_init:s0") ⟨.builtin .start, false, ["start", "${vendor.svc}"], 1⟩
      nestedReference = .ok ["start", "adbd"] := by decide
  have honce : Command.words {} none ⟨.builtin .start, false, ["start", "${vendor.svc}"], 1⟩
      nestedReference = .ok ["start", "${ro.x}"] := by decide
  rw [htwice, honce]
  exact ⟨by decide, fun h => absurd (List.cons.inj (List.cons.inj h).2).1 (by decide)⟩

end Innit
