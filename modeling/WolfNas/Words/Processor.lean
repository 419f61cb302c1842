import WolfNas.Words.EpisodeOffset
import WolfNas.Lib.Run

/-!
# Applying the custom words to a title

The words of a list are applied to a title one after another.  A word takes something out of the
title, replaces something, shifts its episode numbers, or replaces and shifts; it is reported as
used, or as wrong, or not at all.

## Main definitions

* `CustomWord`, `TitleRun` — a word, and what has become of a title.
* `TitleRun.apply`, `processTitle` — one turn of the loop of `process_title`, and the loop.
* `CustomWord.complete` — what a word makes of a title when all of it succeeds.
* `TitleRun.Atomic` — a word is applied completely or not at all.
* `TitleRun.Clear` — the condition on a word and the title it is applied to.

## Main results

* `TitleRun.along_atomic_iff` — every word is applied completely or not at all exactly where
  every one meets the condition.
-/

namespace WolfNas

open Text

/-- A custom word. -/
structure CustomWord where
  type : ℕ
  regex : Bool := true
  replaced : Text := []
  replace : Text := []
  front : Text := []
  back : Text := []
  offset : Text := []

/-- What has become of a title so far: the messages, and the words that were used. -/
structure TitleRun where
  title : Text
  msg : List Text := []
  usedIgnored : List Text := []
  usedReplaced : List Text := []
  usedOffset : List Text := []
  deriving DecidableEq

/-! ## The parts of a word -/

namespace WordTools

variable (tools : WordTools)

/-- `_replace_regex`. -/
def replaceRegex (title replaced replace : Text) : WordResult :=
  match tools.findall replaced title with
  | .error message => { title, message }
  | .ok [] => { title }
  | .ok (_ :: _) =>
    match tools.sub replaced replace title with
    | .error message => { title, message }
    | .ok title => { title, used := true }

/-- `_replace_noregex`. -/
def replaceNoregex (title replaced replace : Text) : WordResult :=
  if replaced <:+: title then { title := replaceText replaced replace title, used := true }
  else { title }

/-- The replacement that a word asks for, by a regular expression or not. -/
def replaceWord (w : CustomWord) (title replace : Text) : WordResult :=
  if w.regex then tools.replaceRegex title w.replaced replace
  else replaceNoregex title w.replaced replace

end WordTools

namespace CustomWord

variable (w : CustomWord)

/-- `replaced_word`. -/
def replacedWord : Text := w.replaced ++ of " ⇒ " ++ w.replace

/-- `offset_word`. -/
def offsetWord : Text := w.front ++ of " + " ++ w.back ++ of " >> " ++ w.offset

end CustomWord

/-! ## The loop -/

namespace TitleRun

variable (tools : WordTools) (s : TitleRun) (w : CustomWord)

/-- The title becomes that of a result. -/
def become (r : WordTools.WordResult) : TitleRun := { s with title := r.title }

/-- A message is added, where there is one. -/
def report (message text : Text) : TitleRun :=
  if message = [] then s else { s with msg := s.msg ++ [text ++ message] }

/-- A word that takes something out. -/
def applyIgnored : TitleRun :=
  let r := tools.replaceWord w s.title []
  let s := s.become r
  if r.used then { s with usedIgnored := s.usedIgnored ++ [w.replaced] }
  else s.report r.message (of "自定义屏蔽词 " ++ w.replaced ++ of " 设置有误：")

/-- A word that replaces something. -/
def applyReplaced : TitleRun :=
  let r := tools.replaceWord w s.title w.replace
  let s := s.become r
  if r.used then { s with usedReplaced := s.usedReplaced ++ [w.replacedWord] }
  else s.report r.message (of "自定义替换词 " ++ w.replacedWord ++ of " 格式有误：")

/-- A word that replaces something and shifts the numbers. -/
def applyBoth : TitleRun :=
  let titleCache := s.title
  let head := of "自定义替换+集偏移词 " ++ w.replacedWord ++ of " @@@ " ++ w.offsetWord
  let r := tools.replaceRegex s.title w.replaced w.replace
  let s := s.become r
  if r.used then
    let r := tools.episodeOffset s.title w.front w.back w.offset
    let s := s.become r
    if r.used then
      { s with
        usedReplaced := s.usedReplaced ++ [w.replacedWord]
        usedOffset := s.usedOffset ++ [w.offsetWord] }
    else if r.message = [] then s
    else { s with title := titleCache }.report r.message (head ++ of " 集偏移部分格式有误：")
  else s.report r.message (head ++ of " 替换部分格式有误：")

/-- A word that shifts the numbers. -/
def applyOffset : TitleRun :=
  let r := tools.episodeOffset s.title w.front w.back w.offset
  let s := s.become r
  if r.used then { s with usedOffset := s.usedOffset ++ [w.offsetWord] }
  else s.report r.message (of "自定义集偏移词 " ++ w.offsetWord ++ of " 格式有误：")

/-- One turn of the loop. -/
def apply : TitleRun :=
  match w.type with
  | 1 => s.applyIgnored tools w
  | 2 => s.applyReplaced tools w
  | 3 => s.applyBoth tools w
  | 4 => s.applyOffset tools w
  | _ => s

end TitleRun

/-- `process_title`. -/
def processTitle (tools : WordTools) (words : List CustomWord) (title : Text) : TitleRun :=
  words.foldl (TitleRun.apply tools) { title }

/-! ## All of a word or nothing -/

/-- The title of a result, where the part has done its work. -/
def WordTools.WordResult.done (r : WordTools.WordResult) : Option Text :=
  if r.used then some r.title else none

/-- What a word makes of a title when all of it succeeds; none where a part of it raises or finds
nothing. -/
def CustomWord.complete (tools : WordTools) (w : CustomWord) (title : Text) : Option Text :=
  match w.type with
  | 1 => (tools.replaceWord w title []).done
  | 2 => (tools.replaceWord w title w.replace).done
  | 3 => (tools.replaceRegex title w.replaced w.replace).done.bind fun title =>
      (tools.episodeOffset title w.front w.back w.offset).done
  | 4 => (tools.episodeOffset title w.front w.back w.offset).done
  | _ => none

namespace TitleRun

variable (tools : WordTools) (s : TitleRun) (w : CustomWord)

/-- The words that were used. -/
def used : List Text := s.usedIgnored ++ s.usedReplaced ++ s.usedOffset

/-- A word is applied completely, and reported as used, or not at all. -/
def Atomic : Prop :=
  match w.complete tools s.title with
  | some title => (s.apply tools w).title = title ∧ s.used.length < (s.apply tools w).used.length
  | none => (s.apply tools w).title = s.title ∧ (s.apply tools w).used = s.used

/-- Where the shift of a word that also replaces comes back with nothing, the replacement has
changed nothing; a shift that raises has not changed the title before. -/
def Clear : Prop :=
  match w.type with
  | 3 =>
    let replaced := tools.replaceRegex s.title w.replaced w.replace
    let shifted := tools.episodeOffset replaced.title w.front w.back w.offset
    replaced.used = true → shifted.used = false → shifted.message = [] → shifted.title = s.title
  | 4 =>
    let shifted := tools.episodeOffset s.title w.front w.back w.offset
    shifted.used = false → shifted.title = s.title
  | _ => True

variable {tools s w}

/-! ### What a turn leaves -/

@[simp] theorem title_report (message text : Text) : (s.report message text).title = s.title := by
  rw [report]
  split_ifs <;> rfl

@[simp] theorem used_report (message text : Text) : (s.report message text).used = s.used := by
  rw [report]
  split_ifs <;> rfl

@[simp] theorem title_become (r : WordTools.WordResult) : (s.become r).title = r.title := rfl

@[simp] theorem used_become (r : WordTools.WordResult) : (s.become r).used = s.used := rfl

theorem used_cached (title : Text) : ({ s with title := title } : TitleRun).used = s.used := rfl

/-- A replacement that has not done its work has changed nothing. -/
theorem title_replaceRegex {title replaced replace : Text}
    (h : (tools.replaceRegex title replaced replace).used = false) :
    (tools.replaceRegex title replaced replace).title = title := by
  rw [WordTools.replaceRegex] at h ⊢
  cases hfound : tools.findall replaced title with
  | error message => rfl
  | ok items =>
    cases items with
    | nil => rfl
    | cons item items =>
      rw [hfound] at h
      cases hsub : tools.sub replaced replace title with
      | error message => rfl
      | ok title => simp [hsub] at h

theorem title_replaceWord {title replace : Text}
    (h : (tools.replaceWord w title replace).used = false) :
    (tools.replaceWord w title replace).title = title := by
  rw [WordTools.replaceWord] at h ⊢
  split_ifs at h ⊢
  · exact title_replaceRegex h
  · rw [WordTools.replaceNoregex] at h ⊢
    by_cases hfound : w.replaced <:+: title
    · simp [hfound] at h
    · rw [if_neg hfound]

/-! ### One word -/

theorem atomic_of_ignored (h : w.type = 1) : s.Atomic tools w := by
  simp only [Atomic, apply, CustomWord.complete, h, applyIgnored, WordTools.WordResult.done]
  cases hused : (tools.replaceWord w s.title []).used with
  | true => simp [used, become]
  | false => simp [title_replaceWord hused]

theorem atomic_of_replaced (h : w.type = 2) : s.Atomic tools w := by
  simp only [Atomic, apply, CustomWord.complete, h, applyReplaced, WordTools.WordResult.done]
  cases hused : (tools.replaceWord w s.title w.replace).used with
  | true => simp [used, become]
  | false => simp [title_replaceWord hused]

/-- A word that replaces and shifts is applied completely or not at all where an empty shift
leaves the title it had before. -/
theorem atomic_iff_of_both (h : w.type = 3) : s.Atomic tools w ↔ s.Clear tools w := by
  simp only [Atomic, Clear, apply, CustomWord.complete, h, applyBoth, WordTools.WordResult.done,
    title_become]
  cases hreplaced : (tools.replaceRegex s.title w.replaced w.replace).used with
  | false => simp [title_replaceRegex hreplaced]
  | true =>
    by_cases hshifted : (tools.episodeOffset (tools.replaceRegex s.title w.replaced
        w.replace).title w.front w.back w.offset).used = true
    · have hlonger : s.usedOffset.length < s.usedOffset.length + 1 + 1 := by omega
      simp [hshifted, used, become, hlonger]
    · by_cases hmessage : (tools.episodeOffset (tools.replaceRegex s.title w.replaced
          w.replace).title w.front w.back w.offset).message = []
      · simp [hshifted, hmessage]
      · simp [hshifted, hmessage, used_cached]

theorem atomic_iff_of_offset (h : w.type = 4) : s.Atomic tools w ↔ s.Clear tools w := by
  simp only [Atomic, Clear, apply, CustomWord.complete, h, applyOffset, WordTools.WordResult.done]
  cases hshifted : (tools.episodeOffset s.title w.front w.back w.offset).used with
  | true => simp [used, become]
  | false => simp

theorem atomic_iff : s.Atomic tools w ↔ s.Clear tools w := by
  by_cases h3 : w.type = 3
  · exact atomic_iff_of_both h3
  by_cases h4 : w.type = 4
  · exact atomic_iff_of_offset h4
  have hclear : s.Clear tools w := by
    rw [Clear]
    split
    · contradiction
    · contradiction
    · trivial
  refine iff_of_true ?_ hclear
  by_cases h1 : w.type = 1
  · exact atomic_of_ignored h1
  by_cases h2 : w.type = 2
  · exact atomic_of_replaced h2
  simp [Atomic, apply, CustomWord.complete]

/-! ### The list of words -/

/-- **Every word of a list is applied completely or not at all exactly where every one meets the
condition** on the title it is applied to. -/
theorem along_atomic_iff (tools : WordTools) (words : List CustomWord) (title : Text) :
    Run.Along (apply tools) (Atomic tools) { title } words ↔
      Run.Along (apply tools) (Clear tools) { title } words :=
  Run.along_iff fun _ _ => atomic_iff

/-- A season that is found, and no locator. -/
def seasonOnly : WordTools :=
  WordTools.tableTools [
    ⟨of "S2", of "S2E05", [{ before := [], text := of "S2" }], of "E05", by decide⟩]

/-- A word that replaces the season and shifts the episode behind a locator. -/
def seasonWord : CustomWord :=
  { type := 3
    replaced := of "S2"
    replace := of "S02"
    front := of "第"
    offset := of "EP+3" }

/-- The locator is missing, the replacement stays, and nothing is reported. -/
theorem seasonWord_half_applied :
    processTitle seasonOnly [seasonWord] (of "S2E05") = { title := of "S02E05" } ∧
      ¬Run.Along (apply seasonOnly) (Atomic seasonOnly) { title := of "S2E05" } [seasonWord] := by
  have hrun : processTitle seasonOnly [seasonWord] (of "S2E05") = { title := of "S02E05" } := by
    decide +kernel
  have hcomplete : seasonWord.complete seasonOnly (of "S2E05") = none := by decide +kernel
  refine ⟨hrun, ?_⟩
  rintro ⟨hatomic, -⟩
  simp only [Atomic, hcomplete] at hatomic
  exact absurd hatomic.1 (by decide +kernel)

end TitleRun

end WolfNas
