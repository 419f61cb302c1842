import WolfNas.Lib.Dict
import WolfNas.Lib.Text
import WolfNas.Lib.Program
import Mathlib

/-!
# Shifting the episode numbers of a title

A custom word may shift the episode numbers that stand between two locators by an expression
such as `EP+12`.  The expression is evaluated as a literal, and a sum is none: the shift raises,
and the title is left as it is.

## Main definitions

* `WordTools` — the regular expressions and the numerals that the words are applied with.
* `WordTools.literalInt` — `int(ast.literal_eval(text))`.
* `WordTools.episodeOffset` — `_episode_offset`.
* `WordTools.shiftedTitle` — the title with every number shifted, all at once.

## Main results

* `WordTools.shifts_iff` — a shift by a sum or a difference is right exactly where it changes
  nothing.
-/

namespace WolfNas

open Text

/-! ## What the words are applied with -/

/-- A place where a pattern is found: what lies before it, what is found, and its groups. -/
structure FoundPlace where
  before : Text
  text : Text
  groups : List Text := []

/-- A member of the list of `findall`: a text, or a tuple of groups. -/
inductive FoundItem
  | text (t : Text)
  | tuple (groups : List Text)

/-- What `findall` lists for a place. -/
def FoundPlace.item (p : FoundPlace) : FoundItem :=
  match p.groups with
  | [] => .text p.text
  | [group] => .text group
  | groups => .tuple groups

/-- The packages for regular expressions and for numerals; what raises has a message. -/
structure WordTools where
  /-- The places of a pattern in a title, and what lies after the last one. -/
  scan : Text → Text → Except Text (List FoundPlace × Text)
  scan_rebuild : ∀ {pattern title places rest}, scan pattern title = .ok (places, rest) →
    (places.flatMap fun p => p.before ++ p.text) ++ rest = title
  /-- What a template stands for at a place. -/
  expand : Text → FoundPlace → Except Text Text
  /-- `int(cn2an.cn2an(item, "smart"))`. -/
  cn2an : FoundItem → Except Text ℤ
  /-- `cn2an.an2cn(n, "low")`. -/
  an2cn : ℤ → Except Text Text
  /-- `int(ast.literal_eval(text))`, for what is not written with digits and signs. -/
  otherLiteral : Text → Except Text ℤ
  /-- The message for a text that is no literal. -/
  malformed : Text → Text

/-! ## Replacing in a text -/

/-- `str.replace` for a text that is not blank, after the next characters are skipped. -/
def replaceFrom (old new : Text) : Text → ℕ → Text
  | [], _ => []
  | _ :: s, skipped + 1 => replaceFrom old new s skipped
  | c :: s, 0 =>
    if old.isPrefixOf (c :: s) then new ++ replaceFrom old new s (old.length - 1)
    else c :: replaceFrom old new s 0

/-- `str.replace`. -/
def replaceText (old new s : Text) : Text :=
  if old = [] then s.flatMap (fun c => new ++ [c]) ++ new else replaceFrom old new s 0

/-- A text without the first character of what is looked for is left as it is. -/
theorem replaceFrom_of_not_mem {c : Char} {old new s : Text} (h : c ∉ s) :
    replaceFrom (c :: old) new s 0 = s := by
  induction s with
  | nil => rfl
  | cons d s ih =>
    rw [List.mem_cons, not_or] at h
    have hnot : (c :: old).isPrefixOf (d :: s) = false := by
      simp [List.isPrefixOf, h.1]
    rw [replaceFrom, hnot, ih h.2]
    simp

namespace WordTools

variable (tools : WordTools)

/-! ## Literals -/

/-- A digit or a sign. -/
def isOffsetChar (c : Char) : Bool := c.isDigit || c ∈ of "-+*/"

/-- A numeral; one that starts with a zero has zeros only. -/
def numeral (s : Text) : Option ℕ :=
  if isDigit s ∧ (s.head? = some '0' → ∀ c ∈ s, c = '0') then some (toNat s) else none

/-- A numeral, behind a sign or not. -/
def signedNumeral : Text → Option ℤ
  | '-' :: s => (numeral s).map fun n : ℕ => -(n : ℤ)
  | '+' :: s => (numeral s).map fun n : ℕ => (n : ℤ)
  | s => (numeral s).map fun n : ℕ => (n : ℤ)

/-- `int(ast.literal_eval(text))`: of what digits and signs can write, a number only. -/
def literalInt (s : Text) : Except Text ℤ :=
  if s.all isOffsetChar then
    match signedNumeral s with
    | some n => .ok n
    | none => .error (tools.malformed s)
  else tools.otherLiteral s

/-! ## Regular expressions -/

/-- `regex.findall`. -/
def findall (pattern title : Text) : Except Text (List FoundItem) :=
  (tools.scan pattern title).map fun found => found.1.map FoundPlace.item

/-- `regex.sub`. -/
def sub (pattern template title : Text) : Except Text Text := do
  let (places, rest) ← tools.scan pattern title
  let parts ← places.mapM fun p => do
    let new ← tools.expand template p
    return p.before ++ new
  return parts.flatten ++ rest

/-- What is found between the locators. -/
def between (front back what : Text) : Text :=
  of "(?<=" ++ front ++ of ".*?)" ++ what ++ of "(?=.*?" ++ back ++ of ")"

/-- The digits of an episode number. -/
def episodeDigits : Text := of "[0-9一二三四五六七八九十]+"

/-- A locator that is not blank is found. -/
def located (locator title : Text) : Except Text Bool :=
  if locator = [] then .ok true
  else (tools.findall locator title).map fun found => !found.isEmpty

/-- What is shifted: nothing where a locator is missing. -/
def episodeItems (title front back : Text) : Except Text (List FoundItem) := do
  let hasBack ← tools.located back title
  let hasFront ← if hasBack then tools.located front title else .ok false
  if hasFront then tools.findall (between front back episodeDigits) title else .ok []

/-! ## The shift -/

/-- A number and what is written in its place. -/
structure NumberShift where
  number : ℤ
  shifted : ℤ
  old : Text
  new : Text

/-- The text of a shifted number: a numeral as the old one is, with its leading zeros. -/
def renderLike (old : Text) (shifted : ℤ) : Except Text Text :=
  if isDigit old then .ok (old.takeWhile (· = '0') ++ ofInt shifted) else tools.an2cn shifted

/-- One number of a title. -/
def shiftItem (offset : Text) (item : FoundItem) : Except Text NumberShift := do
  let number ← tools.cn2an item
  let shifted ← tools.literalInt (replaceText (of "EP") (ofInt number) offset)
  match item with
  | .text old => return ⟨number, shifted, old, ← tools.renderLike old shifted⟩
  | .tuple _ => .error (of "'tuple' object has no attribute 'isdigit'")

/-- `offset_order_flag`: the last number that changes becomes smaller. -/
def orderFlag (shifts : List NumberShift) : Bool :=
  shifts.foldl (fun flag x =>
    if x.shifted < x.number then true else if x.number < x.shifted then false else flag) false

/-- `episode_nums_list`: the numbers and their new texts, sorted by these. -/
def episodeNumsList (shifts : List NumberShift) : List (Text × Text) :=
  let dict : Dict Text Text := shifts.foldl (fun d x => d.set x.old x.new) Dict.empty
  if orderFlag shifts then dict.entries.insertionSort fun x y => x.2 ≤ y.2
  else dict.entries.insertionSort fun x y => y.2 ≤ x.2

/-- The loop over `episode_nums_list`: the title as far as it comes, and what is raised. -/
def substitute (front back : Text) : List (Text × Text) → Text → Text × Option Text
  | [], title => (title, none)
  | (old, new) :: l, title =>
    match tools.sub (between front back old) new title with
    | .error message => (title, some message)
    | .ok title => substitute front back l title

/-- What the application of a word returns: the title, a message, and whether it was used. -/
structure WordResult where
  title : Text
  message : Text := []
  used : Bool := false
  deriving DecidableEq

/-- `_episode_offset`. -/
def episodeOffset (title front back offset : Text) : WordResult :=
  match tools.episodeItems title front back with
  | .error message => { title, message }
  | .ok [] => { title }
  | .ok items =>
    match items.mapM (tools.shiftItem offset) with
    | .error message => { title, message }
    | .ok shifts =>
      match tools.substitute front back (episodeNumsList shifts) title with
      | (title, some message) => { title, message }
      | (title, none) => { title, used := true }

/-! ## What a shift is for -/

/-- The places of the numbers between the locators; none where a locator is missing or is no
regular expression. -/
def episodePlaces (title front back : Text) : List FoundPlace × Text :=
  match tools.located back title, tools.located front title,
      tools.scan (between front back episodeDigits) title with
  | .ok true, .ok true, .ok found => found
  | _, _, _ => ([], title)

/-- What is written for a number that is shifted by `k`; nothing changes for `k = 0`, and for what
is no number. -/
def shiftText (k : ℤ) (old : Text) : Text :=
  if k = 0 then old
  else match tools.cn2an (.text old) with
    | .error _ => old
    | .ok n => (tools.renderLike old (n + k)).toOption.getD old

/-- The title with all its numbers shifted by `k` at once. -/
def shiftedTitle (title front back : Text) (k : ℤ) : Text :=
  let found := tools.episodePlaces title front back
  (found.1.flatMap fun p => p.before ++ tools.shiftText k p.text) ++ found.2

/-- The expression `EP+k` or `EP-k`. -/
def offsetText (plus : Bool) (k : ℕ) : Text :=
  of "EP" ++ (if plus then '+' else '-') :: ofNat k

/-- What the expression adds. -/
def offsetAmount (plus : Bool) (k : ℕ) : ℤ := if plus then k else -k

variable {tools}

/-! ## A sum is no literal -/

theorem numeral_of_mem {c : Char} {s : Text} (hc : c ∈ s) (h : c.isDigit = false) :
    numeral s = none := by
  have hnot : isDigit s = false := by
    rw [isDigit, Bool.and_eq_false_iff]
    exact .inr (List.all_eq_false.mpr ⟨c, hc, by simp [h]⟩)
  simp [numeral, hnot]

/-- A sign that is not the first character makes no number. -/
theorem signedNumeral_of_mem_tail {c d : Char} {s : Text} (hc : c ∈ s) (h : c.isDigit = false) :
    signedNumeral (d :: s) = none := by
  have htail : numeral s = none := numeral_of_mem hc h
  have hwhole : numeral (d :: s) = none := numeral_of_mem (List.mem_cons_of_mem d hc) h
  unfold signedNumeral
  split
  case h_1 heq =>
    obtain ⟨-, rfl⟩ := List.cons.inj heq
    rw [htail, Option.map_none]
  case h_2 heq =>
    obtain ⟨-, rfl⟩ := List.cons.inj heq
    rw [htail, Option.map_none]
  case h_3 => rw [hwhole, Option.map_none]

/-- What stands for a number in a sum. -/
theorem isOffsetChar_of_mem_ofInt {n : ℤ} {c : Char} (h : c ∈ ofInt n) : isOffsetChar c = true := by
  cases n with
  | ofNat n => simp [isOffsetChar, isDigit_of_mem_ofNat h]
  | negSucc n =>
    rw [ofInt, List.mem_cons] at h
    rcases h with rfl | h
    · decide
    · simp [isOffsetChar, isDigit_of_mem_ofNat h]

/-- A sum or a difference is no literal. -/
theorem literalInt_offset (n : ℤ) (plus : Bool) (k : ℕ) :
    ∃ message, tools.literalInt (ofInt n ++ (if plus then '+' else '-') :: ofNat k) =
      .error message := by
  have hsign : (if plus then '+' else '-').isDigit = false := by cases plus <;> decide
  have hchars : (ofInt n ++ (if plus then '+' else '-') :: ofNat k).all isOffsetChar = true := by
    rw [List.all_eq_true]
    intro c hc
    rcases List.mem_append.mp hc with hc | hc
    · exact isOffsetChar_of_mem_ofInt hc
    · rcases List.mem_cons.mp hc with rfl | hc
      · cases plus <;> decide
      · simp [isOffsetChar, isDigit_of_mem_ofNat hc]
  obtain ⟨d, s, hfirst⟩ := List.exists_cons_of_ne_nil (ofInt_ne_nil n)
  have hnone : signedNumeral (ofInt n ++ (if plus then '+' else '-') :: ofNat k) = none := by
    rw [hfirst, List.cons_append]
    exact signedNumeral_of_mem_tail (List.mem_append_right s List.mem_cons_self) hsign
  exact ⟨_, by rw [literalInt, if_pos hchars, hnone]⟩

theorem replaceText_offset (new : Text) (plus : Bool) (k : ℕ) :
    replaceText (of "EP") new (offsetText plus k) =
      new ++ (if plus then '+' else '-') :: ofNat k := by
  have hrest : 'E' ∉ (if plus then '+' else '-') :: ofNat k := by
    rw [List.mem_cons, not_or]
    refine ⟨by cases plus <;> decide, ?_⟩
    intro h
    exact absurd (isDigit_of_mem_ofNat h) (by decide)
  have hskip : ∀ s : Text, replaceFrom (of "EP") new (of "EP" ++ s) 0 =
      new ++ replaceFrom (of "EP") new s 0 := fun s => rfl
  rw [replaceText, if_neg (by decide), offsetText, hskip]
  exact congrArg (new ++ ·) (replaceFrom_of_not_mem hrest)

/-! ## The shift by a sum -/

/-- No number is shifted by a sum. -/
theorem shiftItem_offset (plus : Bool) (k : ℕ) (item : FoundItem) :
    ∃ message, tools.shiftItem (offsetText plus k) item = .error message := by
  rw [shiftItem]
  cases tools.cn2an item with
  | error message => exact ⟨message, rfl⟩
  | ok number =>
    obtain ⟨message, hmessage⟩ := @literalInt_offset tools number plus k
    refine ⟨message, ?_⟩
    simp [bind, Except.bind, replaceText_offset, hmessage]

/-- A shift by a sum leaves the title as it is. -/
theorem episodeOffset_title (title front back : Text) (plus : Bool) (k : ℕ) :
    (tools.episodeOffset title front back (offsetText plus k)).title = title := by
  rw [episodeOffset]
  cases tools.episodeItems title front back with
  | error message => rfl
  | ok items =>
    cases items with
    | nil => rfl
    | cons item items =>
      obtain ⟨message, hmessage⟩ := @shiftItem_offset tools plus k item
      simp [List.mapM_cons, hmessage, bind, Except.bind]

/-- **A shift by a sum or a difference is right exactly where it changes nothing**: where there
is no number between the locators, or the numbers are written as they are. -/
theorem shifts_iff (tools : WordTools) (title front back : Text) (plus : Bool) (k : ℕ) :
    (tools.episodeOffset title front back (offsetText plus k)).title =
        tools.shiftedTitle title front back (offsetAmount plus k) ↔
      tools.shiftedTitle title front back (offsetAmount plus k) = title := by
  rw [episodeOffset_title]
  exact eq_comm

/-- A pattern, a title, and where the pattern is found in it. -/
structure ScanEntry where
  pattern : Text
  title : Text
  places : List FoundPlace
  rest : Text
  rebuild : (places.flatMap fun p => p.before ++ p.text) ++ rest = title

/-- Regular expressions that are given by what they find, and numerals of digits. -/
def tableTools (table : List ScanEntry) : WordTools where
  scan pattern title :=
    match table.find? fun e => e.pattern = pattern ∧ e.title = title with
    | some e => .ok (e.places, e.rest)
    | none => .ok ([], title)
  scan_rebuild := by
    intro pattern title places rest h
    split at h
    case h_1 e he =>
      obtain ⟨rfl, rfl⟩ := Prod.mk.inj (Except.ok.inj h)
      have hfound := List.find?_some he
      rw [decide_eq_true_eq] at hfound
      rw [← hfound.2]
      exact e.rebuild
    case h_2 =>
      obtain ⟨rfl, rfl⟩ := Prod.mk.inj (Except.ok.inj h)
      rfl
  expand template _ := .ok template
  cn2an
    | .text t => if isDigit t then .ok (toNat t) else .error (of "no numeral")
    | .tuple _ => .error (of "no numeral")
  an2cn n := .ok (ofInt n)
  otherLiteral := fun _ => .error (of "invalid syntax")
  malformed := fun _ => of "malformed node or string"

/-- An episode between two locators. -/
def oneEpisode : WordTools :=
  tableTools [
    ⟨of "第", of "第5集", [{ before := [], text := of "第" }], of "5集", by decide⟩,
    ⟨of "集", of "第5集", [{ before := of "第5", text := of "集" }], [], by decide⟩,
    ⟨between (of "第") (of "集") episodeDigits, of "第5集",
      [{ before := of "第", text := of "5" }], of "集", by decide⟩]

/-- The fifth episode is not made the eighth. -/
theorem oneEpisode_not_shifted :
    oneEpisode.shiftedTitle (of "第5集") (of "第") (of "集") (offsetAmount true 3) = of "第8集" ∧
      (oneEpisode.episodeOffset (of "第5集") (of "第") (of "集") (offsetText true 3)).title ≠
        oneEpisode.shiftedTitle (of "第5集") (of "第") (of "集") (offsetAmount true 3) := by
  decide +kernel

end WordTools

end WolfNas
