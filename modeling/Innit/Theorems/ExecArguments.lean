import Mathlib.Data.List.Forall2
import Innit.Service

/-!
# The arguments of `exec`

`exec [SECLABEL [UID [GID]*] --] COMMAND ARGS...`: under which identity a command runs is read off the place of the first `--`.
Which words are read for which field, and that no word outside of the arguments is ever read.
-/

namespace Innit

/-! ## What the arguments say -/

/-- The words that are ids: those from the third one to the one before the `--`. -/
def idWords (args : List String) : List String := (args.take (commandArg args - 1)).drop 2

/-- The identity and the command of a temporary service, as its arguments give them. -/
structure RunsAs (getpwnam : String → Option Nat) (args : List String) (s : Service) : Prop where
  command : s.args = args.drop (commandArg args)
  seclabel : s.seclabel = if commandArg args > 2 ∧ args.getD 1 "" ≠ "-" then args.getD 1 "" else ""
  uid : if commandArg args > 3 then decodeUid getpwnam (args.getD 2 "") = .ok s.procAttr.uid else s.procAttr.uid = 0
  gid : if commandArg args > 4 then decodeUid getpwnam (args.getD 3 "") = .ok s.procAttr.gid else s.procAttr.gid = 0
  suppGids : List.Forall₂ (fun w gid => decodeUid getpwnam w = .ok gid) ((args.take (commandArg args - 1)).drop 4)
    s.procAttr.suppGids

/-! ## The same function, with its accesses checked -/

/-- The difference of two `size_t`, where it does not wrap. -/
def sizeDifference (a b : Nat) : Option Nat := if b ≤ a then some (a - b) else none

/-- The label a command runs under, where there is a word for it. -/
def checkedSeclabel (c : Nat) (args : List String) : Option String :=
  if c > 2 then args[1]?.map (fun word => if word ≠ "-" then word else "") else some ""

/-- `execId` on the word at an index, where there is one. -/
def checkedExecId (getpwnam : String → Option Nat) (given : Bool) (kind : String) (args : List String) (i : Nat) :
    Option (Result Nat) :=
  if given then args[i]?.map (execId getpwnam true kind) else some (.ok 0)

/-- The words of the supplementary gids, where the count does not wrap and each index has a word. -/
def checkedGidWords (c : Nat) (args : List String) : Option (List String) :=
  if c > 4 then do
    let beforeDashes ← sizeDifference c 1
    let nrSuppGids ← sizeDifference beforeDashes 4
    (List.range nrSuppGids).mapM (fun i => args[4 + i]?)
  else some []

/-- The ids of a temporary service, with every access checked. -/
def checkedExecIds (getpwnam : String → Option Nat) (c : Nat) (args : List String) : Option (Result ProcessAttributes) := do
  let uid ← checkedExecId getpwnam (c > 3) "UID" args 2
  let gid ← checkedExecId getpwnam (c > 4) "GID" args 3
  let gidWords ← checkedGidWords c args
  return do
    let uid ← uid
    let gid ← gid
    let suppGids ← decodeGids getpwnam gidWords
    return { uid, gid, suppGids }

/-- `MakeTemporaryOneshotService` with every access checked: `none` if an index is out of range, or a subtraction wraps. -/
def checkedOneshotService (getpwnam : String → Option Nat) (execCount : Nat) (args : List String) : Option (Result Service × Nat) :=
  let c := commandArg args
  if c > 4 + nrSvcSuppGids then some (.error (Error "exec called with too many supplementary group ids"), execCount)
  else if c ≥ args.length then some (.error (Error "exec called without command"), execCount)
  else do
    let seclabel ← checkedSeclabel c args
    let procAttr ← checkedExecIds getpwnam c args
    let strArgs := args.drop c
    return (procAttr.map (fun procAttr =>
      { name := "exec " ++ toString (execCount + 1) ++ " (" ++ join " " strArgs ++ ")"
        flags := { oneshot := true, temporary := true }
        procAttr := procAttr
        seclabel := seclabel
        args := strArgs }), execCount + 1)

namespace ExecArgumentsAux

variable {getpwnam : String → Option Nat}

/-! ## The ids -/

theorem decodeGids_ok_iff (words : List String) (gids : List Nat) :
    decodeGids getpwnam words = .ok gids ↔ List.Forall₂ (fun w gid => decodeUid getpwnam w = .ok gid) words gids := by
  induction words generalizing gids with
  | nil => cases gids <;> simp [decodeGids]
  | cons w words ih =>
    cases hw : decodeUid getpwnam w with
    | error e => cases gids <;> simp [decodeGids, hw]
    | ok gid =>
      cases hwords : decodeGids getpwnam words with
      | error e => cases gids <;> simp [decodeGids, hw, ← ih, hwords]
      | ok rest => cases gids <;> simp [decodeGids, hw, ← ih, hwords]

theorem decodeGids_ok (words : List String) :
    (∃ gids, decodeGids getpwnam words = .ok gids) ↔ ∀ w ∈ words, ∃ gid, decodeUid getpwnam w = .ok gid := by
  induction words with
  | nil => simp [decodeGids]
  | cons w words ih =>
    rw [List.forall_mem_cons, ← ih]
    cases hw : decodeUid getpwnam w with
    | error e => simp [decodeGids, hw]
    | ok gid => cases hwords : decodeGids getpwnam words <;> simp [decodeGids, hw, hwords]

/-- An id is read off its word where the words reach that far, and is 0 otherwise. -/
theorem execId_ok_iff (given : Bool) (kind word : String) (id : Nat) :
    execId getpwnam given kind word = .ok id ↔ if given = true then decodeUid getpwnam word = .ok id else id = 0 := by
  unfold execId
  cases given with
  | false => simp [eq_comm]
  | true => cases decodeUid getpwnam word <;> simp

/-- The ids of a temporary service, one after the other. -/
theorem execIds_eq (c : Nat) (args : List String) :
    execIds getpwnam c args = (do
      let uid ← execId getpwnam (c > 3) "UID" (args.getD 2 "")
      let gid ← execId getpwnam (c > 4) "GID" (args.getD 3 "")
      let suppGids ← decodeGids getpwnam ((args.take (c - 1)).drop 4)
      return { uid, gid, suppGids }) := by
  have hwords : (if c > 4 then (args.drop 4).take (c - 1 - 4) else []) = (args.take (c - 1)).drop 4 := by
    rw [List.drop_take]
    split
    · rfl
    · rw [show c - 1 - 4 = 0 by omega, List.take_zero]
  unfold execIds
  rw [hwords]
  cases execId getpwnam (c > 3) "UID" (args.getD 2 "") with
  | error e => rfl
  | ok uid => cases execId getpwnam (c > 4) "GID" (args.getD 3 "") with
    | error e => rfl
    | ok gid => cases decodeGids getpwnam ((args.take (c - 1)).drop 4) <;> rfl

/-- The ids that are read, where all of them decode. -/
theorem execIds_ok {c : Nat} {args : List String} {procAttr : ProcessAttributes} (h : execIds getpwnam c args = .ok procAttr) :
    execId getpwnam (c > 3) "UID" (args.getD 2 "") = .ok procAttr.uid ∧
      execId getpwnam (c > 4) "GID" (args.getD 3 "") = .ok procAttr.gid ∧
      decodeGids getpwnam ((args.take (c - 1)).drop 4) = .ok procAttr.suppGids := by
  rw [execIds_eq] at h
  cases huid : execId getpwnam (c > 3) "UID" (args.getD 2 "") with
  | error e =>
    rw [huid] at h
    cases h
  | ok uid => cases hgid : execId getpwnam (c > 4) "GID" (args.getD 3 "") with
    | error e =>
      rw [huid, hgid] at h
      cases h
    | ok gid => cases hgids : decodeGids getpwnam ((args.take (c - 1)).drop 4) with
      | error e =>
        rw [huid, hgid, hgids] at h
        cases h
      | ok suppGids =>
        rw [huid, hgid, hgids] at h
        cases h
        exact ⟨rfl, rfl, rfl⟩

/-- The ids of a temporary service decode exactly when each of its words does. -/
theorem execIds_ok_iff {c : Nat} {args : List String} :
    (∃ procAttr, execIds getpwnam c args = .ok procAttr) ↔
      (∃ uid, execId getpwnam (c > 3) "UID" (args.getD 2 "") = .ok uid) ∧
      (∃ gid, execId getpwnam (c > 4) "GID" (args.getD 3 "") = .ok gid) ∧
      ∃ gids, decodeGids getpwnam ((args.take (c - 1)).drop 4) = .ok gids := by
  rw [execIds_eq]
  cases execId getpwnam (c > 3) "UID" (args.getD 2 "") with
  | error e => simp [bind, Except.bind]
  | ok uid => cases execId getpwnam (c > 4) "GID" (args.getD 3 "") with
    | error e => simp [bind, Except.bind]
    | ok gid => cases decodeGids getpwnam ((args.take (c - 1)).drop 4) <;> simp [bind, Except.bind, pure, Except.pure]

/-! ## The words -/

/-- The first word of a part of the arguments. -/
theorem drop_take_word {args : List String} {n k : Nat} (hk : k < n) (hn : n ≤ args.length) :
    (args.take n).drop k = args.getD k "" :: (args.take n).drop (k + 1) := by
  have hlen : k < (args.take n).length := by
    rw [List.length_take]
    omega
  rw [List.drop_eq_getElem_cons hlen, List.getElem_take]
  simp [show k < args.length by omega]

theorem drop_take_none {args : List String} {n k : Nat} (hk : n ≤ k) : (args.take n).drop k = [] := by
  rw [List.drop_eq_nil_iff, List.length_take]
  omega

/-- An id word decodes, where the words reach that far. -/
theorem execId_ok (given : Bool) (kind word : String) :
    (∃ id, execId getpwnam given kind word = .ok id) ↔ (given = true → ∃ id, decodeUid getpwnam word = .ok id) := by
  simp only [execId_ok_iff]
  cases given <;> simp

/-- The ids decode exactly when every word before the `--` does. -/
theorem execIds_ok_iff_words {args : List String} (hlen : commandArg args < args.length) :
    (∃ procAttr, execIds getpwnam (commandArg args) args = .ok procAttr) ↔
      ∀ w ∈ idWords args, ∃ id, decodeUid getpwnam w = .ok id := by
  rw [execIds_ok_iff, execId_ok, execId_ok, decodeGids_ok, idWords]
  simp only [decide_eq_true_eq]
  by_cases huid : commandArg args > 3
  · rw [drop_take_word (k := 2) (by omega) (by omega), List.forall_mem_cons]
    by_cases hgid : commandArg args > 4
    · rw [drop_take_word (k := 3) (by omega) (by omega), List.forall_mem_cons]
      simp only [huid, hgid, true_imp_iff]
    · simp only [huid, hgid, true_imp_iff, false_imp_iff, true_and, drop_take_none (show commandArg args - 1 ≤ 3 by omega),
        drop_take_none (show commandArg args - 1 ≤ 4 by omega)]
  · simp only [huid, show ¬commandArg args > 4 by omega, false_imp_iff, true_and,
      drop_take_none (show commandArg args - 1 ≤ 2 by omega), drop_take_none (show commandArg args - 1 ≤ 4 by omega)]

/-! ## The accesses -/

theorem getElem?_word {args : List String} {i : Nat} (h : i < args.length) : args[i]? = some (args.getD i "") := by
  simp [h]

theorem checkedSeclabel_eq {c : Nat} {args : List String} (h : c < args.length) :
    checkedSeclabel c args = some (if c > 2 ∧ args.getD 1 "" ≠ "-" then args.getD 1 "" else "") := by
  unfold checkedSeclabel
  by_cases hc : c > 2
  · rw [if_pos hc, getElem?_word (by omega), Option.map_some]
    simp only [hc, true_and]
  · rw [if_neg hc, if_neg (fun h => hc h.1)]

theorem checkedExecId_eq {given : Bool} {args : List String} {i : Nat} (h : given = true → i < args.length) (kind : String) :
    checkedExecId getpwnam given kind args i = some (execId getpwnam given kind (args.getD i "")) := by
  cases given with
  | false => rfl
  | true =>
    rw [checkedExecId, if_pos rfl, getElem?_word (h rfl)]
    rfl

/-- The words at consecutive indices in range. -/
theorem mapM_words (args : List String) (k n : Nat) (h : k + n ≤ args.length) :
    (List.range n).mapM (fun i => args[k + i]?) = some ((args.drop k).take n) := by
  induction n with
  | zero => simp
  | succ n ih =>
    have hlast : args[k + n]? = some (args.getD (k + n) "") := getElem?_word (by omega)
    rw [List.range_succ, List.mapM_append, ih (by omega), List.take_add_one, List.getElem?_drop, hlast]
    simp only [List.mapM_cons, hlast, List.mapM_nil]
    rfl

theorem checkedGidWords_eq {c : Nat} {args : List String} (h : c < args.length) :
    checkedGidWords c args = some ((args.take (c - 1)).drop 4) := by
  unfold checkedGidWords
  split
  · have hbefore : sizeDifference c 1 = some (c - 1) := if_pos (by omega)
    have hcount : sizeDifference (c - 1) 4 = some (c - 1 - 4) := if_pos (by omega)
    simp only [hbefore, hcount, Option.bind_eq_bind, Option.bind_some]
    rw [mapM_words args 4 (c - 1 - 4) (by omega), List.drop_take]
  · rw [drop_take_none (by omega)]

theorem checkedExecIds_eq {c : Nat} {args : List String} (h : c < args.length) :
    checkedExecIds getpwnam c args = some (execIds getpwnam c args) := by
  have huid := @checkedExecId_eq getpwnam (c > 3) args 2 (fun hc => by simp at hc; omega) "UID"
  have hgid := @checkedExecId_eq getpwnam (c > 4) args 3 (fun hc => by simp at hc; omega) "GID"
  rw [execIds_eq]
  unfold checkedExecIds
  rw [huid, hgid, checkedGidWords_eq h]
  rfl

/-- No access is out of range, and no subtraction wraps. -/
theorem checkedOneshotService_eq (execCount : Nat) (args : List String) :
    checkedOneshotService getpwnam execCount args = some (makeTemporaryOneshotService getpwnam execCount args) := by
  unfold checkedOneshotService makeTemporaryOneshotService
  dsimp only
  split
  · rfl
  · split
    · rfl
    · next hlen =>
      rw [checkedSeclabel_eq (by omega), checkedExecIds_eq (by omega)]
      cases execIds getpwnam (commandArg args) args <;> rfl

/-! ## The service -/

theorem makeTemporary_ok_iff (execCount : Nat) (args : List String) :
    (∃ s, (makeTemporaryOneshotService getpwnam execCount args).1 = .ok s) ↔
      commandArg args ≤ 4 + nrSvcSuppGids ∧ commandArg args < args.length ∧
        ∀ w ∈ idWords args, ∃ id, decodeUid getpwnam w = .ok id := by
  unfold makeTemporaryOneshotService
  dsimp only
  by_cases hmany : commandArg args > 4 + nrSvcSuppGids
  · rw [if_pos hmany]
    exact ⟨fun ⟨_, h⟩ => (by cases h), fun ⟨h, _⟩ => absurd h (by omega)⟩
  · rw [if_neg hmany]
    by_cases hnone : commandArg args ≥ args.length
    · rw [if_pos hnone]
      exact ⟨fun ⟨_, h⟩ => (by cases h), fun ⟨_, h, _⟩ => absurd h (by omega)⟩
    · rw [if_neg hnone, ← execIds_ok_iff_words (by omega)]
      cases execIds getpwnam (commandArg args) args with
      | error e => exact ⟨fun ⟨_, h⟩ => (by cases h), fun ⟨_, _, _, h⟩ => (by cases h)⟩
      | ok procAttr => exact ⟨fun _ => ⟨by omega, by omega, procAttr, rfl⟩, fun _ => ⟨_, rfl⟩⟩

theorem makeTemporary_runsAs {execCount : Nat} {args : List String} {s : Service}
    (hs : (makeTemporaryOneshotService getpwnam execCount args).1 = .ok s) : RunsAs getpwnam args s := by
  unfold makeTemporaryOneshotService at hs
  dsimp only at hs
  split at hs
  · cases hs
  · split at hs
    · cases hs
    · cases hids : execIds getpwnam (commandArg args) args with
      | error e =>
        rw [hids] at hs
        cases hs
      | ok procAttr =>
        rw [hids] at hs
        cases hs
        obtain ⟨huid, hgid, hgids⟩ := execIds_ok hids
        rw [execId_ok_iff] at huid hgid
        exact ⟨rfl, rfl, by simpa using huid, by simpa using hgid, (decodeGids_ok_iff _ _).1 hgids⟩

end ExecArgumentsAux

open ExecArgumentsAux

/-- A temporary service can be made exactly when the words leave room for a command, are not too many, and the ids decode; it
then runs as its arguments say. No word outside of the arguments is read on the way. -/
theorem makeTemporaryOneshotService_runsAs (getpwnam : String → Option Nat) (execCount : Nat) (args : List String) :
    ((∃ s, (makeTemporaryOneshotService getpwnam execCount args).1 = .ok s) ↔
      commandArg args ≤ 4 + nrSvcSuppGids ∧ commandArg args < args.length ∧
        ∀ w ∈ idWords args, ∃ id, decodeUid getpwnam w = .ok id) ∧
    (∀ s, (makeTemporaryOneshotService getpwnam execCount args).1 = .ok s → RunsAs getpwnam args s) ∧
    checkedOneshotService getpwnam execCount args = some (makeTemporaryOneshotService getpwnam execCount args) :=
  ⟨makeTemporary_ok_iff execCount args, fun _ => makeTemporary_runsAs, checkedOneshotService_eq execCount args⟩

end Innit
