import Mathlib.Data.List.Induction
import Innit.FirmwareHandlers

/-!
# Which firmware handlers are duplicates

A pattern that ends in its first `*` is kept without it, and a line is compared as it is written: a pattern is never found to be a
duplicate, and a path is taken for one where its pattern is there.
-/

namespace Innit

/-- The devpath of a line, as it is written. -/
def writtenDevpath (args : List String) : String := args.getD 1 ""

/-- A line with three parameters, the second of them a user that is known. -/
def HandlerLine (getpwnam : String → Option Nat) (args : List String) : Prop :=
  args.length = 4 ∧ (getpwnam (args.getD 2 "")).isSome = true

/-- What becomes of a line after some others. -/
def handlerLineResult (getpwnam : String → Option Nat) (before : List (List String)) (args : List String) : Result Unit :=
  (parseExternalFirmwareHandlerLine getpwnam args (externalFirmwareHandlers getpwnam before)).1

/-- A line is refused as a duplicate just when an earlier line that was accepted has the same devpath as written. -/
def DuplicatesRefused (getpwnam : String → Option Nat) (lines : List (List String)) : Prop :=
  ∀ before args after, lines = before ++ args :: after →
    (handlerLineResult getpwnam before args = .error (duplicateHandler (writtenDevpath args)) ↔
      ∃ earlier args' between, before = earlier ++ args' :: between ∧ handlerLineResult getpwnam earlier args' = .ok () ∧
        writtenDevpath args' = writtenDevpath args)

/-- No pattern that ends in its first `*` is written twice, and a path is written before such a pattern of the same text, if it is
written behind it. -/
structure WrittenApart (ds : List String) : Prop where
  once : ∀ before text after, ds = before ++ (text ++ "*") :: after → '*' ∉ text.toList → text ++ "*" ∉ before
  pathFirst : ∀ before text after, ds = before ++ text :: after → '*' ∉ text.toList → text ++ "*" ∈ before →
    ∃ earlier between, before = earlier ++ (text ++ "*") :: between ∧ text ∈ earlier

namespace FirmwareDuplicatesAux

/-! ## What is kept of a devpath -/

/-- The devpath that a handler keeps. -/
def kept (devpath : String) : String := (externalFirmwareHandler devpath 0 "").devpath

theorem devpath_eq (devpath : String) (uid : Nat) (handlerPath : String) :
    (externalFirmwareHandler devpath uid handlerPath).devpath = kept devpath := by
  unfold kept externalFirmwareHandler
  split
  · rfl
  · split <;> rfl

theorem kept_pattern {text : String} (h : '*' ∉ text.toList) : kept (text ++ "*") = text := by
  have hfind : (text ++ "*").toList.findIdx? (· = '*') = some text.toList.length := by
    rw [String.toList_append, List.findIdx?_append]
    have hnone : text.toList.findIdx? (fun c => decide (c = '*')) = none := by
      rw [List.findIdx?_eq_none_iff]
      intro c hc
      exact decide_eq_false (fun h' => h (h' ▸ hc))
    rw [hnone]
    simp
  unfold kept externalFirmwareHandler
  rw [hfind]
  dsimp only
  have hlast : text.toList.length = (text ++ "*").toList.length - 1 := by simp
  rw [if_pos hlast, String.toList_append]
  simp

/-- A devpath is kept as it is, or it is a pattern that ends in its first `*`. -/
theorem kept_cases (devpath : String) : kept devpath = devpath ∨ ∃ text, '*' ∉ text.toList ∧ devpath = text ++ "*" := by
  unfold kept externalFirmwareHandler
  cases hfind : devpath.toList.findIdx? (fun c => decide (c = '*')) with
  | none => exact Or.inl rfl
  | some i =>
    dsimp only
    split
    · next hlast =>
      right
      obtain ⟨hlt, hstar, hbefore⟩ := List.findIdx?_eq_some_iff_getElem.1 hfind
      have hne : devpath.toList ≠ [] := List.ne_nil_of_length_pos (by omega)
      have hsplit : devpath.toList = devpath.toList.dropLast ++ ['*'] := by
        have hgetLast : devpath.toList.getLast hne = '*' := by
          rw [List.getLast_eq_getElem]
          simpa only [hlast, decide_eq_true_eq] using hstar
        rw [← hgetLast, List.dropLast_append_getLast]
      refine ⟨String.ofList devpath.toList.dropLast, fun hmem => ?_, ?_⟩
      · rw [String.toList_ofList] at hmem
        obtain ⟨j, hj, heq⟩ := List.mem_iff_getElem.1 hmem
        rw [List.length_dropLast] at hj
        refine hbefore j (by omega) (decide_eq_true ?_)
        rw [← heq, List.getElem_dropLast]
      · apply String.toList_inj.1
        rw [String.toList_append, String.toList_ofList]
        exact hsplit
    · exact Or.inl rfl

/-- A devpath that keeps its text is the text, or its pattern. -/
theorem kept_eq_iff {devpath text : String} : kept devpath = text → devpath = text ∨ '*' ∉ text.toList ∧ devpath = text ++ "*" := by
  rintro rfl
  rcases kept_cases devpath with h | ⟨text, hstar, rfl⟩
  · exact Or.inl h.symm
  · rw [kept_pattern hstar]
    exact Or.inr ⟨hstar, rfl⟩

/-- No handler keeps a pattern that ends in its first `*`. -/
theorem kept_ne_pattern {text : String} (h : '*' ∉ text.toList) (devpath : String) : kept devpath ≠ text ++ "*" := by
  intro heq
  rcases kept_eq_iff heq with rfl | ⟨hstar, -⟩
  · rw [kept_pattern h] at heq
    have hlength := congrArg (fun s : String => s.toList.length) heq
    simp at hlength
  · simp at hstar

/-! ## The lines that are accepted -/

/-- The devpaths of the accepted lines, as they are written. -/
def accepted (ds : List String) : List String := ds.foldl (fun seen d => if d ∈ seen.map kept then seen else seen ++ [d]) []

theorem accepted_snoc (ds : List String) (d : String) :
    accepted (ds ++ [d]) = if d ∈ (accepted ds).map kept then accepted ds else accepted ds ++ [d] := by
  rw [accepted, List.foldl_append]
  rfl

theorem mem_accepted_iff {ds : List String} {d : String} :
    d ∈ accepted ds ↔ ∃ before after, ds = before ++ d :: after ∧ d ∉ (accepted before).map kept := by
  induction ds using List.reverseRecOn with
  | nil => simp [accepted]
  | append_singleton ds last ih =>
    have hearlier : (∃ before after, ds ++ [last] = before ++ d :: after ∧ d ∉ (accepted before).map kept) ↔
        d ∈ accepted ds ∨ d = last ∧ last ∉ (accepted ds).map kept := by
      rw [ih]
      constructor
      · rintro ⟨before, after, hsplit, hnone⟩
        rcases List.eq_nil_or_concat after with rfl | ⟨after', last', rfl⟩
        · obtain ⟨hbefore, hlast⟩ := List.append_inj' hsplit rfl
          obtain rfl : last = d := by simpa using hlast
          subst hbefore
          exact Or.inr ⟨rfl, hnone⟩
        · rw [List.concat_eq_append, ← List.cons_append, ← List.append_assoc] at hsplit
          exact Or.inl ⟨before, after', (List.append_inj' hsplit rfl).1, hnone⟩
      · rintro (⟨before, after, rfl, hnone⟩ | ⟨rfl, hnone⟩)
        · exact ⟨before, after ++ [last], by simp, hnone⟩
        · exact ⟨ds, [], rfl, hnone⟩
    rw [hearlier, accepted_snoc]
    split
    · next hrefused => simp [hrefused]
    · next hnew => simp [hnew]

theorem mem_of_accepted {ds : List String} {d : String} (h : d ∈ accepted ds) : d ∈ ds := by
  obtain ⟨before, after, rfl, -⟩ := mem_accepted_iff.1 h
  simp

theorem accepted_append {ds : List String} {d : String} (h : d ∈ accepted ds) (more : List String) : d ∈ accepted (ds ++ more) := by
  obtain ⟨before, after, rfl, hnone⟩ := mem_accepted_iff.1 h
  exact mem_accepted_iff.2 ⟨before, after ++ more, by simp, hnone⟩

/-- A pattern that ends in its first `*` is accepted wherever it is written. -/
theorem pattern_accepted {ds : List String} {text : String} (h : '*' ∉ text.toList) (hmem : text ++ "*" ∈ ds) :
    text ++ "*" ∈ accepted ds := by
  obtain ⟨before, after, rfl⟩ := List.append_of_mem hmem
  refine mem_accepted_iff.2 ⟨before, after, rfl, fun hkept => ?_⟩
  obtain ⟨other, -, heq⟩ := List.mem_map.1 hkept
  exact kept_ne_pattern h other heq

/-- What the handlers keep, against what was accepted: a text is kept that was written so, or whose pattern was. -/
theorem mem_kept_iff {ds : List String} {d : String} (hpattern : ∀ text, '*' ∉ text.toList → d ≠ text ++ "*") :
    d ∈ (accepted ds).map kept ↔ d ∈ accepted ds ∨ '*' ∉ d.toList ∧ d ++ "*" ∈ ds := by
  constructor
  · intro h
    obtain ⟨other, hother, heq⟩ := List.mem_map.1 h
    rcases kept_eq_iff heq with rfl | ⟨hstar, rfl⟩
    · exact Or.inl hother
    · exact Or.inr ⟨hstar, mem_of_accepted hother⟩
  · rintro (h | ⟨hstar, h⟩)
    · refine List.mem_map.2 ⟨d, h, ?_⟩
      rcases kept_cases d with hkept | ⟨text, hstar, heq⟩
      · exact hkept
      · exact absurd heq (hpattern text hstar)
    · exact List.mem_map.2 ⟨d ++ "*", pattern_accepted hstar h, kept_pattern hstar⟩

/-- A text that is written before its pattern is accepted, where no text comes behind a pattern that it is not written before. -/
theorem text_accepted {ds : List String} (h : WrittenApart ds) {before after : List String} {text : String} (hstar : '*' ∉ text.toList)
    (hds : ds = before ++ after) (hmem : text ∈ before) : text ∈ accepted before := by
  induction before using List.reverseRecOn generalizing after with
  | nil => cases hmem
  | append_singleton before last ih =>
    have hsplit : ds = before ++ last :: after := by rw [hds, List.append_assoc, List.singleton_append]
    by_cases hearlier : text ∈ before
    · exact accepted_append (ih (by rw [hsplit]) hearlier) [last]
    · obtain rfl : text = last := by simpa [hearlier] using hmem
      have hnew : text ∉ (accepted before).map kept := by
        rw [mem_kept_iff (fun other hother heq => hstar (by rw [heq]; simp))]
        rintro (hseen | ⟨-, hpattern⟩)
        · exact hearlier (mem_of_accepted hseen)
        · obtain ⟨earlier, between, rfl, hwritten⟩ := h.pathFirst before text after hsplit hstar hpattern
          exact hearlier (List.mem_append_left _ hwritten)
      rw [accepted_snoc, if_neg hnew]
      simp

/-- On the devpaths alone: what is kept decides as what was accepted does, at every line, if and only if they are written apart. -/
theorem writtenApart_iff (ds : List String) :
    (∀ before d after, ds = before ++ d :: after → (d ∈ (accepted before).map kept ↔ d ∈ accepted before)) ↔ WrittenApart ds := by
  constructor
  · intro h
    refine ⟨fun before text after hds hstar hmem => ?_, fun before text after hds hstar hmem => ?_⟩
    · obtain ⟨other, -, heq⟩ := List.mem_map.1 ((h before (text ++ "*") after hds).2 (pattern_accepted hstar hmem))
      exact kept_ne_pattern hstar other heq
    · have hkept : text ∈ (accepted before).map kept := List.mem_map.2 ⟨text ++ "*", pattern_accepted hstar hmem, kept_pattern hstar⟩
      obtain ⟨earlier, between, rfl, hnew⟩ := mem_accepted_iff.1 ((h before text after hds).1 hkept)
      have hnone : text ++ "*" ∉ earlier := fun hpattern =>
        hnew (List.mem_map.2 ⟨text ++ "*", pattern_accepted hstar hpattern, kept_pattern hstar⟩)
      have hlater : text ++ "*" ∈ between := by
        rcases List.mem_append.1 hmem with h' | h'
        · exact absurd h' hnone
        · rcases List.mem_cons.1 h' with heq | h'
          · exact absurd (by rw [← heq]; simp) hstar
          · exact h'
      obtain ⟨between', rest, rfl⟩ := List.append_of_mem hlater
      exact ⟨earlier ++ text :: between', rest, by simp, by simp⟩
  · intro h before d after hds
    by_cases hpattern : ∃ text, '*' ∉ text.toList ∧ d = text ++ "*"
    · obtain ⟨text, hstar, rfl⟩ := hpattern
      refine iff_of_false (fun hkept => ?_) (fun hseen => h.once before text after hds hstar (mem_of_accepted hseen))
      obtain ⟨other, -, heq⟩ := List.mem_map.1 hkept
      exact kept_ne_pattern hstar other heq
    · rw [mem_kept_iff (fun text hstar heq => hpattern ⟨text, hstar, heq⟩)]
      constructor
      · rintro (hseen | ⟨hstar, hmem⟩)
        · exact hseen
        · obtain ⟨earlier, between, hbefore, hwritten⟩ := h.pathFirst before d after hds hstar hmem
          exact text_accepted h hstar hds (by rw [hbefore]; exact List.mem_append_left _ hwritten)
      · exact Or.inl

/-! ## The lines -/

variable {getpwnam : String → Option Nat}

/-- What a line with a known user comes to. -/
theorem parse_eq {args : List String} (h : HandlerLine getpwnam args) (handlers : List ExternalFirmwareHandler) :
    (writtenDevpath args ∈ handlers.map (·.devpath) ∧
        parseExternalFirmwareHandlerLine getpwnam args handlers = (.error (duplicateHandler (writtenDevpath args)), handlers)) ∨
      (writtenDevpath args ∉ handlers.map (·.devpath) ∧ ∃ handler, handler.devpath = kept (writtenDevpath args) ∧
        parseExternalFirmwareHandlerLine getpwnam args handlers = (.ok (), handlers ++ [handler])) := by
  obtain ⟨hlength, huser⟩ := h
  obtain ⟨uid, huid⟩ := Option.isSome_iff_exists.1 huser
  have hany : handlers.any (fun other => other.devpath = args.getD 1 "") = true ↔ writtenDevpath args ∈ handlers.map (·.devpath) := by
    rw [List.any_eq_true, List.mem_map]
    simp only [decide_eq_true_eq, writtenDevpath]
  unfold parseExternalFirmwareHandlerLine
  rw [if_neg (fun h => h hlength), huid]
  by_cases hmem : writtenDevpath args ∈ handlers.map (·.devpath)
  · rw [if_pos (hany.2 hmem)]
    exact Or.inl ⟨hmem, rfl⟩
  · rw [if_neg (fun h => hmem (hany.1 h))]
    exact Or.inr ⟨hmem, _, devpath_eq _ uid _, rfl⟩

/-- The handlers keep what is kept of the accepted devpaths. -/
theorem handlers_devpaths (lines : List (List String)) (h : ∀ args ∈ lines, HandlerLine getpwnam args) :
    (externalFirmwareHandlers getpwnam lines).map (·.devpath) = (accepted (lines.map writtenDevpath)).map kept := by
  induction lines using List.reverseRecOn with
  | nil => rfl
  | append_singleton lines args ih =>
    have hbefore := ih (fun other hother => h other (List.mem_append_left _ hother))
    rw [externalFirmwareHandlers, List.foldl_append, List.map_append, List.map_singleton, accepted_snoc, ← hbefore]
    change ((parseExternalFirmwareHandlerLine getpwnam args (externalFirmwareHandlers getpwnam lines)).2).map _ = _
    obtain ⟨hmem, hparse⟩ | ⟨hnew, handler, hkept, hparse⟩ := parse_eq (h args (by simp)) (externalFirmwareHandlers getpwnam lines)
    · rw [hparse, if_pos hmem]
      exact hbefore
    · rw [hparse, if_neg hnew, List.map_append, List.map_append, hbefore, List.map_singleton, List.map_singleton, hkept]

/-- A line is refused as a duplicate, or accepted, by what is kept of the accepted devpaths before it. -/
theorem handlerLineResult_iff {before : List (List String)} {args : List String} (hbefore : ∀ other ∈ before, HandlerLine getpwnam other)
    (hargs : HandlerLine getpwnam args) :
    (handlerLineResult getpwnam before args = .error (duplicateHandler (writtenDevpath args)) ↔
        writtenDevpath args ∈ (accepted (before.map writtenDevpath)).map kept) ∧
      (handlerLineResult getpwnam before args = .ok () ↔
        writtenDevpath args ∉ (accepted (before.map writtenDevpath)).map kept) := by
  rw [← handlers_devpaths before hbefore]
  unfold handlerLineResult
  obtain ⟨hmem, hparse⟩ | ⟨hnew, handler, -, hparse⟩ := parse_eq hargs (externalFirmwareHandlers getpwnam before)
  · rw [hparse]
    exact ⟨iff_of_true rfl hmem, iff_of_false (by simp) (fun h => h hmem)⟩
  · rw [hparse]
    exact ⟨iff_of_false (by simp) hnew, iff_of_true rfl hnew⟩

/-- A devpath was accepted, told from the lines. -/
theorem accepted_lines {before : List (List String)} (hbefore : ∀ other ∈ before, HandlerLine getpwnam other) (d : String) :
    d ∈ accepted (before.map writtenDevpath) ↔
      ∃ earlier args' between, before = earlier ++ args' :: between ∧ handlerLineResult getpwnam earlier args' = .ok () ∧
        writtenDevpath args' = d := by
  rw [mem_accepted_iff]
  constructor
  · rintro ⟨ds, ds', hsplit, hnew⟩
    obtain ⟨earlier, rest, rfl, rfl, hrest⟩ := List.map_eq_append_iff.1 hsplit
    obtain ⟨args', between, rfl, rfl, -⟩ := List.map_eq_cons_iff.1 hrest
    exact ⟨earlier, args', between, rfl,
      (handlerLineResult_iff (fun other hother => hbefore other (by simp [hother])) (hbefore args' (by simp))).2.2 hnew, rfl⟩
  · rintro ⟨earlier, args', between, rfl, hok, rfl⟩
    exact ⟨earlier.map writtenDevpath, between.map writtenDevpath, by simp,
      (handlerLineResult_iff (fun other hother => hbefore other (by simp [hother])) (hbefore args' (by simp))).2.1 hok⟩

end FirmwareDuplicatesAux

open FirmwareDuplicatesAux

/-- Of lines with known users, exactly those are refused as duplicates whose devpath an earlier accepted line has as written, if and
only if no pattern that ends in its first `*` is written twice and no path behind its pattern alone. -/
theorem duplicatesRefused_iff (getpwnam : String → Option Nat) (lines : List (List String))
    (hlines : ∀ args ∈ lines, HandlerLine getpwnam args) :
    DuplicatesRefused getpwnam lines ↔ WrittenApart (lines.map writtenDevpath) := by
  rw [← writtenApart_iff]
  constructor
  · intro h ds d ds' hsplit
    obtain ⟨before, rest, rfl, rfl, hrest⟩ := List.map_eq_append_iff.1 hsplit
    obtain ⟨args, after, rfl, rfl, -⟩ := List.map_eq_cons_iff.1 hrest
    have hbefore : ∀ other ∈ before, HandlerLine getpwnam other := fun other hother => hlines other (by simp [hother])
    rw [accepted_lines hbefore, ← h before args after rfl]
    exact (handlerLineResult_iff hbefore (hlines args (by simp))).1.symm
  · rintro h before args after rfl
    have hbefore : ∀ other ∈ before, HandlerLine getpwnam other := fun other hother => hlines other (by simp [hother])
    rw [← accepted_lines hbefore, (handlerLineResult_iff hbefore (hlines args (by simp))).1]
    exact h (before.map writtenDevpath) (writtenDevpath args) (after.map writtenDevpath) (by simp)

theorem duplicatesRefused_sample :
    DuplicatesRefused (fun _ => some 0)
      [["external_firmware_handler", "/a/", "root", "/h"], ["external_firmware_handler", "/a/*", "root", "/h"]] := by
  refine (duplicatesRefused_iff (fun _ => some 0)
    [["external_firmware_handler", "/a/", "root", "/h"], ["external_firmware_handler", "/a/*", "root", "/h"]]
    (fun args hargs => ?_)).2 ⟨fun before text after hds hstar => ?_, fun before text after hds hstar hmem => ?_⟩
  · simp only [List.mem_cons, List.not_mem_nil, or_false] at hargs
    rcases hargs with rfl | rfl <;> exact ⟨rfl, rfl⟩
  · rcases before with _ | ⟨first, _ | ⟨second, rest⟩⟩
    · simp
    · obtain ⟨rfl, hlast⟩ := List.cons.inj hds
      rw [← (List.cons.inj hlast).1]
      decide
    · simp at hds
  · rcases before with _ | ⟨first, _ | ⟨second, rest⟩⟩
    · cases hmem
    · obtain ⟨-, hlast⟩ := List.cons.inj hds
      rw [← (List.cons.inj hlast).1] at hstar
      exact absurd (by decide) hstar
    · simp at hds

/-- A path behind its pattern is refused, though no line has it; and a pattern is accepted twice. -/
theorem pattern_hides_path :
    let getpwnam : String → Option Nat := fun _ => some 0
    let pattern := ["external_firmware_handler", "/a/*", "root", "/h"]
    let path := ["external_firmware_handler", "/a/", "root", "/h"]
    (handlerLineResult getpwnam [pattern] path = .error (duplicateHandler "/a/") ∧ ¬DuplicatesRefused getpwnam [pattern, path]) ∧
      handlerLineResult getpwnam [pattern] pattern = .ok () ∧ ¬DuplicatesRefused getpwnam [pattern, pattern] := by
  intro getpwnam pattern path
  have hrefused : handlerLineResult getpwnam [pattern] path = .error (duplicateHandler "/a/") := by decide
  have hfirst : handlerLineResult getpwnam [] pattern = .ok () := by decide
  have hagain : handlerLineResult getpwnam [pattern] pattern = .ok () := by decide
  refine ⟨⟨hrefused, fun h => ?_⟩, hagain, fun h => ?_⟩
  · obtain ⟨earlier, args', between, hsplit, -, hsame⟩ := (h [pattern] path [] rfl).1 hrefused
    rcases earlier with _ | ⟨first, rest⟩
    · rw [← (List.cons.inj hsplit).1] at hsame
      exact absurd hsame (by decide)
    · simp at hsplit
  · have hrefusedToo := (h [pattern] pattern [] rfl).2 ⟨[], pattern, [], rfl, hfirst, rfl⟩
    rw [hagain] at hrefusedToo
    cases hrefusedToo

end Innit
