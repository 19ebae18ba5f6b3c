import Mathlib.Data.List.TakeDrop
import Innit.ServiceParser
import Innit.Theorems.ExecArguments

/-!
# The groups of a service and of `exec`

The option `group` takes a group and twelve supplementary ones, by the bounds of its keyword. `exec` bounds the place of its command:
with the `--` before it, the command stands one place further than the bound allows for, and eleven are the most it takes.
-/

namespace Innit

open ServiceParser

/-- The words of a `group` line. -/
def groupLine (groups : List String) : List String := "group" :: groups

/-- The words of an `exec` command without a label. -/
def execLine (user : String) (groups command : List String) : List String := "exec" :: "-" :: user :: groups ++ "--" :: command

/-- A process has the groups that the words name: the first as its own. -/
def HasGroups (getpwnam : String → Option Nat) (groups : List String) (attr : ProcessAttributes) : Prop :=
  decodeUid getpwnam (groups.headD "") = .ok attr.gid ∧
    List.Forall₂ (fun w gid => decodeUid getpwnam w = .ok gid) groups.tail attr.suppGids

/-- The option and the command are accepted alike, and both give the groups that the words name. -/
structure GroupsAgree (E : OptionEnv) (s : Service) (execCount : Nat) (user : String) (groups command : List String) : Prop where
  accepted : (parseOptionLine E (groupLine groups) s).1 = .ok () ↔
    ∃ t, (makeTemporaryOneshotService E.ctx.getpwnam execCount (execLine user groups command)).1 = .ok t
  same : ∀ t, (parseOptionLine E (groupLine groups) s).1 = .ok () →
    (makeTemporaryOneshotService E.ctx.getpwnam execCount (execLine user groups command)).1 = .ok t →
      HasGroups E.ctx.getpwnam groups (parseOptionLine E (groupLine groups) s).2.procAttr ∧
        HasGroups E.ctx.getpwnam groups t.procAttr

/-- Both lists of words are past their bound; or both are within, and the words are the only groups of the service and none is `--`,
or there is one and its id is the default. -/
def WithinBoth (getpwnam : String → Option Nat) (s : Service) (user : String) (groups : List String) : Prop :=
  "--" ∉ user :: groups.take (nrSvcSuppGids + 1) ∧ nrSvcSuppGids + 1 < groups.length ∨
    s.procAttr.suppGids = [] ∧
      ("--" ∉ user :: groups ∧ groups.length < nrSvcSuppGids + 1 ∨
        "--" ∈ user :: groups ∧ groups.length = 1 ∧ decodeUid getpwnam (groups.headD "") = .ok 0)

namespace GroupLimitsAux

open ExecArgumentsAux

variable {getpwnam : String → Option Nat}

/-! The option -/

theorem addSuppGids_ok {Γ : Ctx} {words : List String} {gids : List Nat} (h : decodeGids Γ.getpwnam words = .ok gids) (s : Service) :
    addSuppGids Γ words s = accept { s with procAttr := { s.procAttr with suppGids := s.procAttr.suppGids ++ gids } } := by
  induction words generalizing gids s with
  | nil =>
    cases h
    simp [addSuppGids]
  | cons w words ih =>
    unfold decodeGids at h
    unfold addSuppGids
    cases hgid : decodeUid Γ.getpwnam w with
    | error e =>
      rw [hgid] at h
      cases h
    | ok gid =>
      rw [hgid] at h
      cases hrest : decodeGids Γ.getpwnam words with
      | error e =>
        rw [hrest] at h
        cases h
      | ok rest =>
        rw [hrest] at h
        cases h
        dsimp only
        rw [ih hrest]
        simp

theorem find_groupLine {groups : List String} (hne : groups ≠ []) :
    if groups.length ≤ nrSvcSuppGids + 1 then serviceParserMap.find (groupLine groups) = .ok .group
    else ∃ e, serviceParserMap.find (groupLine groups) = .error e := by
  have hkeyword : List.find? (fun e => e.1 = "group") serviceParserMap = some ("group", ⟨1, some (nrSvcSuppGids + 1), .group⟩) := rfl
  have hpos : 0 < groups.length := List.length_pos_of_ne_nil hne
  unfold KeywordMap.find groupLine
  dsimp only
  rw [hkeyword]
  dsimp only
  have hbounds : (groups.length < 1 ∨ Option.any (fun n => decide (n < groups.length)) (some (nrSvcSuppGids + 1)) = true) ↔
      ¬groups.length ≤ nrSvcSuppGids + 1 := by
    simp only [Option.any_some, decide_eq_true_eq]
    omega
  by_cases hle : groups.length ≤ nrSvcSuppGids + 1
  · have hexact : ¬(some (nrSvcSuppGids + 1) = some 1 ∧ groups.length ≠ 1) := fun h => absurd h.1 (by decide)
    rw [if_pos hle, if_neg (fun h => hbounds.1 h hle), if_neg hexact]
  · rw [if_neg hle, if_pos (hbounds.2 hle)]
    exact ⟨_, rfl⟩

/-- The keyword's bounds are all that refuses a `group` line whose words decode. -/
theorem groupLine_accepted (E : OptionEnv) (s : Service) {groups : List String} (hne : groups ≠ [])
    (hdecode : ∀ w ∈ groups, ∃ gid, decodeUid E.ctx.getpwnam w = .ok gid) :
    ((parseOptionLine E (groupLine groups) s).1 = .ok () ↔ groups.length ≤ nrSvcSuppGids + 1) ∧
      (groups.length ≤ nrSvcSuppGids + 1 → ∃ gid suppGids,
        (parseOptionLine E (groupLine groups) s).2.procAttr =
            { s.procAttr with gid := gid, suppGids := s.procAttr.suppGids ++ suppGids } ∧
          decodeUid E.ctx.getpwnam (groups.headD "") = .ok gid ∧
          List.Forall₂ (fun w gid => decodeUid E.ctx.getpwnam w = .ok gid) groups.tail suppGids) := by
  have hfind := find_groupLine hne
  unfold parseOptionLine
  by_cases hle : groups.length ≤ nrSvcSuppGids + 1
  · rw [if_pos hle] at hfind
    obtain ⟨first, rest, rfl⟩ := List.exists_cons_of_ne_nil hne
    obtain ⟨gid, hgid⟩ := hdecode first (by simp)
    obtain ⟨gids, hgids⟩ := (decodeGids_ok rest).2 (fun w hw => hdecode w (by simp [hw]))
    have hparsed : parseOption E (groupLine (first :: rest)) s .group =
        accept { s with procAttr := { s.procAttr with gid := gid, suppGids := s.procAttr.suppGids ++ gids } } := by
      change parseGroup E.ctx ("group" :: first :: rest) s = _
      unfold parseGroup
      simp only [List.getD_cons_succ, List.getD_cons_zero, hgid, List.drop_succ_cons, List.drop_zero]
      rw [addSuppGids_ok hgids]
    rw [hfind]
    dsimp only
    rw [hparsed]
    exact ⟨iff_of_true rfl hle, fun _ => ⟨gid, gids, rfl, hgid, (decodeGids_ok_iff rest gids).1 hgids⟩⟩
  · rw [if_neg hle] at hfind
    obtain ⟨e, he⟩ := hfind
    rw [he]
    exact ⟨iff_of_false (by simp) hle, fun h => absurd h hle⟩

/-! The command -/

/-- The first `--` of the arguments, after some words. -/
theorem findIdx?_dashes (words command : List String) :
    (words ++ "--" :: command).findIdx? (· = "--") = some (words.idxOf "--") := by
  induction words with
  | nil => rfl
  | cons w words ih =>
    by_cases hw : w = "--"
    · rw [List.cons_append, List.findIdx?_cons]
      simp [hw]
    · rw [List.cons_append, List.findIdx?_cons, List.idxOf_cons_ne _ hw, ih]
      simp [hw]

theorem commandArg_execLine (user : String) (groups command : List String) :
    commandArg (execLine user groups command) = (user :: groups).idxOf "--" + 3 := by
  have hfirst : (execLine user groups command).tail.findIdx? (· = "--") = some ((user :: groups).idxOf "--" + 1) := by
    have htail : (execLine user groups command).tail = "-" :: (user :: groups ++ "--" :: command) := rfl
    rw [htail, List.findIdx?_cons, findIdx?_dashes]
    rfl
  unfold commandArg
  rw [hfirst]

/-- The ids of the command are words of the user and the groups. -/
theorem idWords_execLine {user : String} {groups command : List String} :
    idWords (execLine user groups command) = (user :: groups).take ((user :: groups).idxOf "--") := by
  have hle : (user :: groups).idxOf "--" ≤ (user :: groups).length := List.idxOf_le_length
  have hwords : execLine user groups command = ["exec", "-"] ++ (user :: groups) ++ "--" :: command := rfl
  rw [idWords, commandArg_execLine, hwords, List.append_assoc]
  change List.drop 2 (List.take ((user :: groups).idxOf "--" + 2) ("exec" :: "-" :: (user :: groups ++ "--" :: command))) = _
  rw [List.take_succ_cons, List.take_succ_cons, List.drop_succ_cons, List.drop_succ_cons, List.drop_zero,
    List.take_append_of_le_length hle]

/-- The command is accepted just when its first `--` stands no further than behind the twelfth word. -/
theorem execLine_accepted {user : String} {groups command : List String} (execCount : Nat) (hcommand : command ≠ [])
    (hdecode : ∀ w ∈ user :: groups, ∃ id, decodeUid getpwnam w = .ok id) :
    (∃ t, (makeTemporaryOneshotService getpwnam execCount (execLine user groups command)).1 = .ok t) ↔
      (user :: groups).idxOf "--" ≤ nrSvcSuppGids + 1 := by
  have hlength : (execLine user groups command).length = groups.length + command.length + 4 := by
    simp only [execLine, List.length_append, List.length_cons]
    omega
  have hpos : 0 < command.length := List.length_pos_of_ne_nil hcommand
  have hindex : (user :: groups).idxOf "--" ≤ groups.length + 1 := List.idxOf_le_length
  have hids : ∀ w ∈ idWords (execLine user groups command), ∃ id, decodeUid getpwnam w = .ok id := by
    intro w hw
    rw [idWords_execLine] at hw
    exact hdecode w (List.mem_of_mem_take hw)
  rw [makeTemporary_ok_iff, commandArg_execLine, hlength]
  constructor
  · rintro ⟨hmany, -, -⟩
    omega
  · intro hle
    exact ⟨by omega, by omega, hids⟩

/-- The groups of the process of an accepted command: the words between the user and the first `--`. -/
theorem execLine_groups {user : String} {groups command : List String} {execCount : Nat} {t : Service}
    (ht : (makeTemporaryOneshotService getpwnam execCount (execLine user groups command)).1 = .ok t) :
    (if (user :: groups).idxOf "--" > 1 then decodeUid getpwnam (groups.headD "") = .ok t.procAttr.gid else t.procAttr.gid = 0) ∧
      List.Forall₂ (fun w gid => decodeUid getpwnam w = .ok gid) ((groups.take ((user :: groups).idxOf "--" - 1)).tail)
        t.procAttr.suppGids := by
  have hruns := makeTemporary_runsAs ht
  have hindex : (user :: groups).idxOf "--" ≤ groups.length + 1 := List.idxOf_le_length
  have hgid := hruns.gid
  have hsupp : List.Forall₂ (fun w gid => decodeUid getpwnam w = .ok gid) ((idWords (execLine user groups command)).drop 2)
      t.procAttr.suppGids := by
    rw [idWords, List.drop_drop]
    exact hruns.suppGids
  rw [commandArg_execLine] at hgid
  rw [idWords_execLine] at hsupp
  constructor
  · by_cases hmore : (user :: groups).idxOf "--" > 1
    · obtain ⟨first, rest, rfl⟩ := List.exists_cons_of_ne_nil (show groups ≠ [] by rintro rfl; simp at hindex; omega)
      rw [if_pos (by omega)] at hgid
      rw [if_pos hmore]
      exact hgid
    · rw [if_neg (by omega)] at hgid
      rw [if_neg hmore]
      exact hgid
  · cases hk : (user :: groups).idxOf "--" with
    | zero =>
      rw [hk] at hsupp
      exact hsupp
    | succ k =>
      rw [hk, List.take_succ_cons, List.drop_succ_cons, List.drop_one] at hsupp
      exact hsupp

/-- Where the words stand: all of the groups are before the first `--`, or the `--` is one of them. -/
theorem idxOf_dashes (user : String) (groups : List String) :
    "--" ∉ user :: groups ∧ (user :: groups).idxOf "--" = groups.length + 1 ∨
      "--" ∈ user :: groups ∧ (user :: groups).idxOf "--" ≤ groups.length := by
  by_cases hmem : "--" ∈ user :: groups
  · refine Or.inr ⟨hmem, ?_⟩
    have hlt : (user :: groups).idxOf "--" < (user :: groups).length := List.idxOf_lt_length_of_mem hmem
    rw [List.length_cons] at hlt
    omega
  · exact Or.inl ⟨hmem, by rw [List.idxOf_eq_length hmem, List.length_cons]⟩

/-- Whether some of the groups are before the first `--`. -/
theorem notMem_take_dashes {user : String} {groups : List String} {n : Nat} (hn : n ≤ groups.length) :
    "--" ∉ user :: groups.take n ↔ n < (user :: groups).idxOf "--" := by
  rw [← List.take_succ_cons]
  obtain ⟨hnone, hindex⟩ | ⟨hmem, -⟩ := idxOf_dashes user groups
  · exact iff_of_true (fun h => hnone (List.mem_of_mem_take h)) (by omega)
  · rw [List.mem_take_iff_idxOf_lt hmem]
    omega

/-- The groups of a `group` line are those it names only if there were none before. -/
theorem hasGroups_line {words : List String} {attr : ProcessAttributes} {gid : Nat} {suppGids : List Nat}
    (hgid : decodeUid getpwnam (words.headD "") = .ok gid)
    (hsupp : List.Forall₂ (fun w gid => decodeUid getpwnam w = .ok gid) words.tail suppGids) :
    HasGroups getpwnam words { attr with gid := gid, suppGids := attr.suppGids ++ suppGids } ↔ attr.suppGids = [] := by
  constructor
  · rintro ⟨-, hall⟩
    have hlength := hall.length_eq
    rw [List.length_append, ← hsupp.length_eq] at hlength
    exact List.eq_nil_of_length_eq_zero (by omega)
  · intro hnone
    rw [hnone]
    exact ⟨hgid, hsupp⟩

/-- The groups of an accepted command are those it names only if none of its words is a `--`, or if the one group is the default. -/
theorem hasGroups_exec {user : String} {groups command : List String} {execCount : Nat} {t : Service} (hne : groups ≠ [])
    (ht : (makeTemporaryOneshotService getpwnam execCount (execLine user groups command)).1 = .ok t) :
    HasGroups getpwnam groups t.procAttr ↔
      "--" ∉ user :: groups ∨ groups.length = 1 ∧ decodeUid getpwnam (groups.headD "") = .ok 0 := by
  obtain ⟨hgid, hsupp⟩ := execLine_groups ht
  have hpos : 0 < groups.length := List.length_pos_of_ne_nil hne
  have hcount := hsupp.length_eq
  rw [List.length_tail, List.length_take] at hcount
  obtain ⟨hnone, hindex⟩ | ⟨hmem, hindex⟩ := idxOf_dashes user groups
  · rw [if_pos (by omega)] at hgid
    rw [show (user :: groups).idxOf "--" - 1 = groups.length by omega, List.take_length] at hsupp
    exact iff_of_true ⟨hgid, hsupp⟩ (Or.inl hnone)
  · constructor
    · rintro ⟨hfirst, hall⟩
      have hlength := hall.length_eq
      rw [List.length_tail] at hlength
      rw [if_neg (by omega)] at hgid
      rw [hgid] at hfirst
      exact Or.inr ⟨by omega, hfirst⟩
    · rintro (hnone | ⟨hone, hzero⟩)
      · exact absurd hmem hnone
      · rw [if_neg (by omega)] at hgid
        have htail : groups.tail = [] := List.eq_nil_of_length_eq_zero (by rw [List.length_tail]; omega)
        have hsuppNone : t.procAttr.suppGids = [] := List.eq_nil_of_length_eq_zero (by omega)
        refine ⟨by rw [hgid, hzero], ?_⟩
        rw [htail, hsuppNone]
        exact .nil

end GroupLimitsAux

open ExecArgumentsAux GroupLimitsAux

/-- The option `group` and the command `exec` take the same groups just when the words are past both bounds, or within both. -/
theorem groupsAgree_iff (E : OptionEnv) (s : Service) (execCount : Nat) (user : String) (groups command : List String)
    (hne : groups ≠ []) (hcommand : command ≠ [])
    (hdecode : ∀ w ∈ user :: groups, ∃ id, decodeUid E.ctx.getpwnam w = .ok id) :
    GroupsAgree E s execCount user groups command ↔ WithinBoth E.ctx.getpwnam s user groups := by
  obtain ⟨hoption, hgroups⟩ := groupLine_accepted E s hne (fun w hw => hdecode w (by simp [hw]))
  have hexec := execLine_accepted execCount hcommand hdecode
  have hpos : 0 < groups.length := List.length_pos_of_ne_nil hne
  have hindex := idxOf_dashes user groups
  constructor
  · rintro ⟨haccepted, hsame⟩
    rw [hoption, hexec] at haccepted
    by_cases hle : groups.length ≤ nrSvcSuppGids + 1
    · obtain ⟨gid, suppGids, hattr, hgid, hsupp⟩ := hgroups hle
      obtain ⟨t, ht⟩ := hexec.2 (haccepted.1 hle)
      obtain ⟨hline, hcmd⟩ := hsame t (hoption.2 hle) ht
      rw [hattr, hasGroups_line hgid hsupp] at hline
      rw [hasGroups_exec hne ht] at hcmd
      refine Or.inr ⟨hline, ?_⟩
      obtain ⟨hnone, hlast⟩ | ⟨hmem, -⟩ := hindex
      · exact Or.inl ⟨hnone, by have := haccepted.1 hle; omega⟩
      · exact Or.inr ⟨hmem, hcmd.resolve_left (fun hnone => hnone hmem)⟩
    · exact Or.inl ⟨(notMem_take_dashes (by omega)).2 (by omega), by omega⟩
  · rintro (⟨hnone, hlong⟩ | ⟨hfresh, hwords⟩)
    · rw [notMem_take_dashes (by omega)] at hnone
      refine ⟨?_, fun t hline _ => absurd (hoption.1 hline) (by omega)⟩
      rw [hoption, hexec]
      exact iff_of_false (by omega) (by omega)
    · have hfits : groups.length ≤ nrSvcSuppGids + 1 := by
        obtain ⟨-, hlt⟩ | ⟨-, hone, -⟩ := hwords <;> omega
      have hmany : nrSvcSuppGids = 12 := rfl
      refine ⟨?_, fun t _ ht => ?_⟩
      · rw [hoption, hexec]
        refine iff_of_true hfits ?_
        obtain ⟨-, hlt⟩ | ⟨-, hone, -⟩ := hwords <;> omega
      · obtain ⟨gid, suppGids, hattr, hgid, hsupp⟩ := hgroups hfits
        rw [hattr, hasGroups_line hgid hsupp, hasGroups_exec hne ht]
        exact ⟨hfresh, hwords.imp (fun h => h.1) (fun h => h.2)⟩

theorem groupsAgree_sample :
    GroupsAgree { ctx := {}, services := [], prop := fun _ => "" } { name := "s", args := ["/bin/s"] } 0 "1000" ["1001", "1002"]
      ["/bin/true"] :=
  (groupsAgree_iff { ctx := {}, services := [], prop := fun _ => "" } { name := "s", args := ["/bin/s"] } 0 "1000" ["1001", "1002"]
    ["/bin/true"] (by simp) (by simp) ((decodeGids_ok _).1 ⟨[1000, 1001, 1002], by decide⟩)).2
    (Or.inr ⟨rfl, Or.inl ⟨by decide, by decide⟩⟩)

/-- Of a group and twelve supplementary ones, the option takes all and the command none. -/
theorem twelve_supplementary_refused :
    let E : OptionEnv := { ctx := {}, services := [], prop := fun _ => "" }
    let s : Service := { name := "s", args := ["/bin/s"] }
    let groups := ["1", "2", "3", "4", "5", "6", "7", "8", "9", "10", "11", "12", "13"]
    (∀ w ∈ "1000" :: groups, ∃ id, decodeUid E.ctx.getpwnam w = .ok id) ∧
      (parseOptionLine E (groupLine groups) s).1 = .ok () ∧
      (parseOptionLine E (groupLine groups) s).2.procAttr.suppGids = [2, 3, 4, 5, 6, 7, 8, 9, 10, 11, 12, 13] ∧
      (makeTemporaryOneshotService E.ctx.getpwnam 0 (execLine "1000" groups ["/bin/true"])).1 =
        .error (Error "exec called with too many supplementary group ids") ∧
      ¬GroupsAgree E s 0 "1000" groups ["/bin/true"] := by
  intro E s groups
  have hoption : (parseOptionLine E (groupLine groups) s).1 = .ok () := by decide
  have hexec : (makeTemporaryOneshotService E.ctx.getpwnam 0 (execLine "1000" groups ["/bin/true"])).1 =
      .error (Error "exec called with too many supplementary group ids") := rfl
  have hids : decodeGids E.ctx.getpwnam ("1000" :: groups) = .ok [1000, 1, 2, 3, 4, 5, 6, 7, 8, 9, 10, 11, 12, 13] := by decide
  refine ⟨(decodeGids_ok _).1 ⟨_, hids⟩, hoption, by decide, hexec, fun h => ?_⟩
  obtain ⟨t, ht⟩ := h.accepted.1 hoption
  rw [hexec] at ht
  cases ht

end Innit
