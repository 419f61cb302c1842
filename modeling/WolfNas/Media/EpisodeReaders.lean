import Mathlib.Data.List.Perm.Subperm
import WolfNas.Media.EpisodeText
import Mathlib.Data.Option.Basic

/-!
# The readers of recorded episodes

The text an item leaves in the download and the transfer history is read back in three
places, each with its own patterns: the library check (`recordedEpisodes`), the progress of a
season, and the reopening of a subscription after a failed transfer.  The last one gives the
text to the parser of file names.

## Main definitions

* `episodeSpan`, `presentEpisodes`, `contiguousEpisodes` — the progress of a season.
* `TitleRule`, `extractAll`, `parseRecord`, `reopened` — the parser on a recorded text.
* `DecodedByLibrary`, `DecodedByProgress`, `DecodedByReopening` — a reader finds the season and
  the episodes.

## Main results

* `le_contiguousEpisodes_iff` — what the progress of a season says about its episodes.
* `recordedEpisodes_span` — the library check reads no span of episodes.
* `decoded_iff` — when all three readers find the season and the episodes of an item.
-/

namespace WolfNas

open Text

/-- The digits a text starts with. -/
def digits (s : Text) : Text := s.takeWhile Char.isDigit

/-! ## The progress of a season -/

/-- What `_SEASON_RE` finds. -/
def searchSeason : Text → Option ℕ
  | [] => none
  | c :: s => if c.toUpper = 'S' ∧ digits s ≠ [] then some (toNat (digits s)) else searchSeason s

/-- The end of a span that starts with `first`: `(?:\s*[-~]\s*E?(\d+))?`. -/
def episodeEnd (first : ℕ) (s : Text) : ℕ :=
  match s.dropWhile isSpace with
  | [] => first
  | c :: s =>
    if c = '-' ∨ c = '~' then
      let s := s.dropWhile isSpace
      let found := digits (if s.head?.map Char.toUpper = some 'E' then s.tail else s)
      if found = [] then first else toNat found
    else first

/-- What `_EPISODE_RANGE_RE` finds behind the letter of the season. -/
def episodeSpanAt (s : Text) : Option (ℕ × ℕ) :=
  match (s.dropWhile Char.isDigit).dropWhile isSpace with
  | [] => none
  | c :: rest =>
    if digits s ≠ [] ∧ c.toUpper = 'E' ∧ digits rest ≠ [] then
      some (toNat (digits rest), episodeEnd (toNat (digits rest)) (rest.dropWhile Char.isDigit))
    else none

/-- What `_EPISODE_RANGE_RE` finds. -/
def episodeSpan : Text → Option (ℕ × ℕ)
  | [] => none
  | c :: s => if c.toUpper = 'S' ∧ (episodeSpanAt s).isSome then episodeSpanAt s else episodeSpan s

/-- The number a caller names; `0` stands for none. -/
def orFirst (n : ℕ) : ℕ := if n = 0 then 1 else n

/-- The episodes one record adds to the progress of a season. -/
def presentEpisodes (season start : ℕ) (se : Option Text) : List ℕ :=
  match se with
  | none | some [] => []
  | some se =>
    if searchSeason se = some (orFirst season) then
      match episodeSpan se with
      | none => [orFirst start]
      | some (b, e) => List.range' b (e + 1 - b)
    else []

/-- `contiguous_episodes`. -/
def contiguousEpisodes (ses : List (Option Text)) (season start : ℕ) : ℕ :=
  let present := ses.flatMap (presentEpisodes season start)
  let counted := (List.range' (orFirst start) (present.length + 1)).takeWhile (· ∈ present)
  orFirst start - 1 + counted.length

/-! ## The parser of file names -/

/-- A word character of a pattern, among the ASCII characters. -/
def isWord (c : Char) : Bool := c.isAlphanum || c = '_'

/-- `\b` in front of a word. -/
def wordStarts (prev : Option Char) : Bool := !prev.any isWord

/-- `\b` behind a word. -/
def wordEnds (s : Text) : Bool := !s.head?.any isWord

/-- `(\d{1,k})`, where no digit can follow. -/
def number (k : ℕ) (s : Text) : Option (ℕ × Text) :=
  if 1 ≤ (digits s).length ∧ (digits s).length ≤ k then
    some (toNat (digits s), s.dropWhile Char.isDigit)
  else none

/-- One of two letters. -/
def skipLetter (c : Char) : Text → Option Text
  | [] => none
  | d :: s => if d.toUpper = c then some s else none

/-- `[-~]`. -/
def skipDash : Text → Option Text
  | [] => none
  | d :: s => if d = '-' ∨ d = '~' then some s else none

/-- What a rule reads: a number, and the end of a span. -/
abbrev Numbers := ℕ × Option ℕ

/-- The two kinds of numbers that are read from a recorded text. -/
inductive RuleCategory
  | season
  | episode
  deriving DecidableEq, Repr

/-- A rule: it looks at a place of the text, behind the given character, and returns the
numbers and the rest of the text behind the match. -/
structure TitleRule where
  category : RuleCategory
  matchAt : Option Char → Text → Option (Numbers × Text)

/-- `s_dash_s`. -/
def sDashS : TitleRule where
  category := .season
  matchAt _ s := do
    let s ← skipLetter 'S' s
    let s := ((skipLetter 'E' s).getD s).dropWhile isSpace
    let (b, s) ← number 2 s
    let s ← skipDash (s.dropWhile isSpace)
    let s ← skipLetter 'S' (s.dropWhile isSpace)
    let s := ((skipLetter 'E' s).getD s).dropWhile isSpace
    let found := (digits s).take 2
    if found = [] then none else some ((b, some (Text.toNat found)), s.drop found.length)

/-- `sxx_format`. -/
def sxxFormat : TitleRule where
  category := .season
  matchAt prev s := do
    guard (wordStarts prev)
    let s ← skipLetter 'S' s
    let (n, s) ← number 2 s
    guard (wordEnds s)
    -- The season is not the start of a span of seasons.
    guard ((do
      let s ← skipDash (s.dropWhile isSpace)
      let s := s.dropWhile isSpace
      let s ← skipLetter 'S' s <|> skipLetter 'E' s
      guard (digits (s.dropWhile isSpace) ≠ []) : Option Unit).isNone)
    return ((n, none), s)

/-- `ep_to_ep_range`. -/
def epToEpRange : TitleRule where
  category := .episode
  matchAt prev s := do
    guard (wordStarts prev)
    let s ← skipLetter 'E' s
    let (b, s) ← number 4 ((skipLetter 'P' s).getD s)
    let s ← skipDash s
    let s ← skipLetter 'E' s
    let (e, s) ← number 4 ((skipLetter 'P' s).getD s)
    let s := ((skipLetter 'E' s).bind (skipLetter 'D')).getD s
    guard (wordEnds s)
    return ((b, some e), s)

/-- `ep_prefix`. -/
def epPrefix : TitleRule where
  category := .episode
  matchAt prev s := do
    guard (wordStarts prev)
    let s ← skipLetter 'E' s
    let (n, s) ← number 4 ((skipLetter 'P' s).getD s)
    guard (wordEnds s)
    return ((n, none), s)

/-- The rules, by falling priority, that can find something in a recorded text.  The others
need letters or signs that no such text has, digits that no letter precedes, or what one of
these has found before. -/
def titleRules : List TitleRule := [sDashS, sxxFormat, epToEpRange, epPrefix]

/-- `re.search`: the first place where a rule matches, with the end of the match. -/
def TitleRule.search (r : TitleRule) : Option Char → ℕ → Text → Option (Numbers × ℕ × ℕ)
  | prev, start, s => match r.matchAt prev s with
    | some (found, rest) => some (found, start, start + (s.length - rest.length))
    | none => match s with
      | [] => none
      | c :: s => TitleRule.search r (some c) (start + 1) s

/-- What the rules have found so far, and the places they have used. -/
structure Extracted where
  season : Option Numbers := none
  episode : Option Numbers := none
  consumed : List (ℕ × ℕ) := []
  deriving DecidableEq, Repr

/-- A rule of the engine: it is passed over where its category has a value, or where its match
overlaps with a place that was used. -/
def applyRule (text : Text) (x : Extracted) (r : TitleRule) : Extracted :=
  let known := match r.category with
    | .season => x.season
    | .episode => x.episode
  if known.isSome then x
  else match r.search none 0 text with
    | none => x
    | some (found, start, stop) =>
      if x.consumed.any fun used => start < used.2 ∧ used.1 < stop then x
      else
        let x := { x with consumed := x.consumed ++ [(start, stop)] }
        match r.category with
        | .season => { x with season := some found }
        | .episode => { x with episode := some found }

/-- `RuleEngine.extract_all`. -/
def extractAll (text : Text) : Extracted := titleRules.foldl (applyRule text) {}

/-- The numbers of a parsed title. -/
structure ParsedNumbers where
  season : Option ℕ := none
  endSeason : Option ℕ := none
  episode : Option ℕ := none
  endEpisode : Option ℕ := none
  deriving DecidableEq, Repr

/-- `_build_result`: a span of more than fifty episodes is a whole pack, and a lone episode is
one of the first season. -/
def buildResult (x : Extracted) : ParsedNumbers :=
  let pack : Bool := match x.episode with
    | some (b, some e) => decide (b + 50 ≤ e)
    | _ => false
  let episode := if pack then none else x.episode
  { season := match x.season with
      | some (n, _) => some n
      | none => if pack ∨ episode.isSome then some 1 else none
    endSeason := x.season.bind Prod.snd
    episode := episode.map Prod.fst
    endEpisode := episode.bind Prod.snd }

/-- `UnifiedParser.parse` on a recorded text, which its preparation leaves as it is; `profile`
stands for the parsers that plugins have registered. -/
def parseRecord (profile : Text → Option ParsedNumbers) (text : Text) : Option ParsedNumbers :=
  if text = [] then none
  else some ((profile text).getD (buildResult (extractAll text)))

/-- The season and the episodes that are put back after a failed transfer. -/
def reopened (profile : Text → Option ParsedNumbers) (text : Text) : Option ℕ × List ℕ :=
  match parseRecord profile text with
  | none => (none, [])
  | some p => (p.season, match p.episode with
    | none => []
    | some b =>
      let e := match p.endEpisode with
        | none | some 0 => b
        | some e => e
      List.range' b (e + 1 - b))

/-! ## Reading a recorded text -/

variable {w s b e q start : ℕ} {r : Text} {profile : Text → Option ParsedNumbers}

theorem digits_padTo (hr : ∀ c ∈ r.head?, c.isDigit = false) : digits (padTo w s ++ r) = padTo w s :=
  takeWhile_digits (fun _ hc => isDigit_of_mem_padTo hc) hr

theorem dropWhile_padTo (hr : ∀ c ∈ r.head?, c.isDigit = false) :
    (padTo w s ++ r).dropWhile Char.isDigit = r :=
  dropWhile_digits (fun _ hc => isDigit_of_mem_padTo hc) hr

/-- What stands behind the first episode of a span. -/
def spanTail (w b e : ℕ) : Text := if b = e then [] else '-' :: 'E' :: padTo w e

theorem recordText_eq : MediaInfo.recordText w s b e =
    'S' :: (padTo 2 s ++ ' ' :: 'E' :: (padTo w b ++ spanTail w b e)) := by
  simp [MediaInfo.recordText, spanTail]

theorem head_spanTail : ∀ c ∈ (spanTail w b e).head?, c.isDigit = false := by
  rw [spanTail]
  split
  · simp
  · intro c hc
    obtain rfl : '-' = c := by simpa using hc
    decide

theorem blank_not_digit {u : Text} : ∀ c ∈ (' ' :: u).head?, c.isDigit = false := by
  intro c hc
  obtain rfl : ' ' = c := by simpa using hc
  decide

theorem nil_not_digit : ∀ c ∈ ([] : Text).head?, c.isDigit = false := by simp

/-! ### The progress of a season -/

theorem searchSeason_recordText : searchSeason (MediaInfo.recordText w s b e) = some s := by
  have hS : ('S' : Char).toUpper = 'S' := by decide
  rw [recordText_eq, searchSeason, digits_padTo blank_not_digit, toNat_padTo]
  simp [hS, padTo_ne_nil]

theorem episodeEnd_spanTail (first : ℕ) :
    episodeEnd first (spanTail w b e) = if b = e then first else e := by
  rw [spanTail]
  by_cases h : b = e
  · simp [h, episodeEnd]
  · have hE : ('E' : Char).toUpper = 'E' := by decide
    have hdash : isSpace '-' = false := by decide
    have hletter : isSpace 'E' = false := by decide
    have hdigits : digits (padTo w e) = padTo w e := by
      simpa using @digits_padTo w e [] nil_not_digit
    simp [h, episodeEnd, hE, hdash, hletter, hdigits, padTo_ne_nil, toNat_padTo]

theorem episodeSpanAt_recordText :
    episodeSpanAt (padTo 2 s ++ ' ' :: 'E' :: (padTo w b ++ spanTail w b e)) = some (b, e) := by
  have hE : ('E' : Char).toUpper = 'E' := by decide
  have hblank : isSpace ' ' = true := by decide
  have hletter : isSpace 'E' = false := by decide
  have hend : (if b = e then b else e) = e := by split <;> simp_all
  rw [episodeSpanAt, dropWhile_padTo blank_not_digit, digits_padTo blank_not_digit]
  simp [hblank, hletter, hE, padTo_ne_nil, digits_padTo head_spanTail,
    dropWhile_padTo head_spanTail, toNat_padTo, episodeEnd_spanTail, hend]

theorem episodeSpan_recordText :
    episodeSpan (MediaInfo.recordText w s b e) = some (b, e) := by
  have hS : ('S' : Char).toUpper = 'S' := by decide
  rw [recordText_eq, episodeSpan, episodeSpanAt_recordText]
  simp [hS]

/-- A record adds its episodes to the progress of its season, and nothing to that of another. -/
theorem presentEpisodes_recordText :
    presentEpisodes q start (some (MediaInfo.recordText w s b e)) =
      if orFirst q = s then List.range' b (e + 1 - b) else [] := by
  have hne : MediaInfo.recordText w s b e ≠ [] := by simp [recordText_eq]
  have hspan := @episodeSpan_recordText w s b e
  have hseason := @searchSeason_recordText w s b e
  rw [presentEpisodes]
  · simp [hseason, hspan, eq_comm]
  · simpa using hne

/-- How far a condition holds from the start of a row of numbers. -/
theorem lt_length_takeWhile_range' {p : ℕ → Bool} {a m j : ℕ} :
    j < ((List.range' a m).takeWhile p).length ↔ j < m ∧ ∀ k ≤ j, p (a + k) = true := by
  induction m generalizing a j with
  | zero => simp
  | succ m ih =>
    rw [List.range'_succ]
    by_cases ha : p a = true
    · rw [List.takeWhile_cons_of_pos ha, List.length_cons]
      cases j with
      | zero => simp [ha]
      | succ j =>
        rw [Nat.succ_lt_succ_iff, Nat.succ_lt_succ_iff, ih]
        refine and_congr_right fun _ => ?_
        constructor
        · intro h k hk
          cases k with
          | zero => simpa using ha
          | succ k =>
            have := h k (by omega)
            rwa [Nat.add_right_comm, Nat.add_assoc] at this
        · intro h k hk
          have := h (k + 1) (by omega)
          rwa [Nat.add_right_comm, Nat.add_assoc]
    · rw [List.takeWhile_cons_of_neg ha]
      simp only [List.length_nil, Nat.not_lt_zero, false_iff, not_and, not_forall]
      intro _
      exact ⟨0, by omega, by simpa using ha⟩

/-- **The progress of a season** reaches an episode exactly where every episode from the start
up to it is on record. -/
theorem le_contiguousEpisodes_iff {ses : List (Option Text)} {n : ℕ} (hn : orFirst start ≤ n) :
    n ≤ contiguousEpisodes ses q start ↔
      ∀ k, orFirst start ≤ k → k ≤ n → k ∈ ses.flatMap (presentEpisodes q start) := by
  have hpos : 1 ≤ orFirst start := by
    rw [orFirst]
    split <;> omega
  obtain ⟨j, rfl⟩ := Nat.exists_eq_add_of_le hn
  have hlt : ∀ len, orFirst start + j ≤ orFirst start - 1 + len ↔ j < len := by
    intro len
    omega
  rw [contiguousEpisodes, hlt, lt_length_takeWhile_range']
  constructor
  · rintro ⟨-, h⟩ k hk hkj
    have := h (k - orFirst start) (by omega)
    rw [Nat.add_sub_cancel' hk] at this
    simpa using this
  · intro h
    refine ⟨?_, fun k hk => by simpa using h (orFirst start + k) (by omega) (by omega)⟩
    -- There are no more numbers in the row than on record.
    have hsub : List.range' (orFirst start) (j + 1) ⊆ ses.flatMap (presentEpisodes q start) := by
      intro k hk
      have := List.mem_range'_1.mp hk
      exact h k (by omega) (by omega)
    have hlen := (List.Nodup.subperm List.nodup_range' hsub).length_le
    rw [List.length_range'] at hlen
    omega

/-- Two records of a season, which leave out the fourth episode. -/
theorem le_contiguousEpisodes_iff_three :
    3 ≤ contiguousEpisodes [some (of "S01 E01-E03"), some (of "S01 E05")] 1 1 ↔
      ∀ k, orFirst 1 ≤ k → k ≤ 3 →
        k ∈ [some (of "S01 E01-E03"), some (of "S01 E05")].flatMap (presentEpisodes 1 1) :=
  le_contiguousEpisodes_iff (by decide)

/-! ### The library check -/

theorem letter_not_mem_padTo {c : Char} (hc : c.isDigit = false) (w n : ℕ) : c ∉ padTo w n := by
  intro h
  rw [isDigit_of_mem_padTo h] at hc
  simp at hc

theorem splitOn_spanTail : (padTo w b ++ spanTail w b e).splitOn 'E' =
    if b = e then [padTo w b] else [padTo w b ++ ['-'], padTo w e] := by
  have hE : ∀ n, 'E' ∉ padTo w n := letter_not_mem_padTo (by decide) w
  rw [spanTail]
  by_cases h : b = e
  · simp [h, List.splitOn_eq_singleton (hE e)]
  · have hfirst : 'E' ∉ padTo w b ++ ['-'] := by simp [hE b]
    have happ : padTo w b ++ '-' :: 'E' :: padTo w e = (padTo w b ++ ['-']) ++ 'E' :: padTo w e := by
      simp
    rw [if_neg h, if_neg h, happ, List.splitOn_append_cons_self_of_not_mem hfirst,
      List.splitOn_eq_singleton (hE e)]

/-- The parts of a record, as the library check takes them apart. -/
theorem parts_recordText :
    (((MediaInfo.recordText w s b e).filter (· ≠ 'S')).splitOn 'E').map strip =
      padTo 2 s :: if b = e then [padTo w b] else [padTo w b ++ ['-'], padTo w e] := by
  have hkeep : (padTo 2 s ++ ' ' :: 'E' :: (padTo w b ++ spanTail w b e)).filter (· ≠ 'S') =
      padTo 2 s ++ ' ' :: 'E' :: (padTo w b ++ spanTail w b e) := by
    have hS : ∀ w n, 'S' ∉ padTo w n := letter_not_mem_padTo (by decide)
    have hall : 'S' ∉ padTo 2 s ++ ' ' :: 'E' :: (padTo w b ++ spanTail w b e) := by
      rw [spanTail]
      split <;> simp [hS]
    rw [List.filter_eq_self]
    intro c hc
    simp only [ne_eq, decide_eq_true_eq]
    rintro rfl
    exact hall hc
  have hfirst : 'E' ∉ padTo 2 s ++ [' '] := by
    simp [letter_not_mem_padTo (c := 'E') (by decide) 2 s]
  have happ : padTo 2 s ++ ' ' :: 'E' :: (padTo w b ++ spanTail w b e) =
      (padTo 2 s ++ [' ']) ++ 'E' :: (padTo w b ++ spanTail w b e) := by simp
  have hstrip : ∀ w n, (padTo w n).strip = padTo w n := fun w n =>
    strip_of_trimmed (trimmed_padTo w n)
  have hseason : (padTo 2 s ++ [' ']).strip = padTo 2 s :=
    strip_append_blank (trimmed_padTo 2 s) (padTo_ne_nil 2 s)
  rw [recordText_eq, List.filter_cons_of_neg (by simp), hkeep, happ,
    List.splitOn_append_cons_self_of_not_mem hfirst, splitOn_spanTail]
  have hdash : (padTo w b ++ ['-']).strip = padTo w b ++ ['-'] := by
    refine strip_of_trimmed (trimmed_of_forall ?_)
    intro c hc
    rcases List.mem_append.mp hc with hc | hc
    · exact isSpace_of_isDigit (isDigit_of_mem_padTo hc)
    · obtain rfl := List.mem_singleton.mp hc
      decide
  split <;> simp [hseason, hstrip, hdash]

theorem recordedEpisodes_single :
    recordedEpisodes q (MediaInfo.recordText w s b b) = some (if q = s then [b] else []) := by
  have hdash : '-' ∉ padTo w b := letter_not_mem_padTo (by decide) w b
  rw [recordedEpisodes, parts_recordText]
  by_cases h : q = s
  · simp [h, isDigit_padTo, toNat_padTo, hdash]
  · simp [h, Ne.symm h, toNat_padTo]

/-- The letter of the second episode ends the number in front of it, so a span cannot be read. -/
theorem recordedEpisodes_span (h : b ≠ e) :
    recordedEpisodes s (MediaInfo.recordText w s b e) = none := by
  have hdash : '-' ∉ padTo w b := letter_not_mem_padTo (by decide) w b
  have hsplit : (padTo w b ++ ['-']).splitOn '-' = [padTo w b, []] := by
    rw [List.splitOn_append_cons_self_of_not_mem hdash]
    rfl
  have hnil : parseInt [] = none := by decide
  rw [recordedEpisodes, parts_recordText]
  simp [h, isDigit_padTo, toNat_padTo, hsplit, hnil]

/-! ### The parser -/

theorem skipLetter_of_ne {c d : Char} (h : d.toUpper ≠ c) (s : Text) : skipLetter c (d :: s) = none := by
  simp [skipLetter, h]

theorem skipLetter_season (s : Text) : skipLetter 'S' ('S' :: s) = some s := rfl

theorem skipLetter_episode (s : Text) : skipLetter 'E' ('E' :: s) = some s := rfl

theorem search_of_match {rule : TitleRule} {prev : Option Char} {u : Text} {found : Numbers}
    (h : rule.matchAt prev u = some (found, r)) (start : ℕ) :
    rule.search prev start u = some (found, start, start + (u.length - r.length)) := by
  rw [TitleRule.search.eq_def]
  simp [h]

theorem search_cons {rule : TitleRule} {prev : Option Char} {c : Char} {u : Text}
    (h : rule.matchAt prev (c :: u) = none) (start : ℕ) :
    rule.search prev start (c :: u) = rule.search (some c) (start + 1) u := by
  rw [TitleRule.search.eq_def]
  simp [h]

theorem search_nil {rule : TitleRule} {prev : Option Char} (h : rule.matchAt prev [] = none)
    (start : ℕ) : rule.search prev start [] = none := by
  rw [TitleRule.search.eq_def]
  simp [h]

/-- A rule whose matches start with a letter finds nothing before that letter. -/
theorem search_append {rule : TitleRule} {c : Char}
    (hrule : ∀ prev s, skipLetter c s = none → rule.matchAt prev s = none) {u : Text}
    (hu : ∀ d ∈ u, d.toUpper ≠ c) (prev : Option Char) (start : ℕ) (s : Text) :
    rule.search prev start (u ++ s) =
      rule.search (u.getLast?.or prev) (start + u.length) s := by
  induction u generalizing prev start with
  | nil => simp
  | cons d u ih =>
    have hd := hrule prev (d :: (u ++ s)) (skipLetter_of_ne (hu d (by simp)) _)
    rw [List.cons_append, search_cons hd, ih fun x hx => hu x (by simp [hx])]
    have hlast : u.getLast?.or (some d) = (d :: u).getLast?.or prev := by
      cases u with
      | nil => simp
      | cons x u =>
        have hsome : (x :: u).getLast? = some ((x :: u).getLast (by simp)) :=
          List.getLast?_eq_getLast_of_ne_nil (by simp)
        rw [List.getLast?_cons_cons, hsome]
        rfl
    rw [hlast, List.length_cons, Nat.add_assoc, Nat.add_comm 1]

theorem search_none {rule : TitleRule} {c : Char}
    (hrule : ∀ prev s, skipLetter c s = none → rule.matchAt prev s = none) {u : Text}
    (hu : ∀ d ∈ u, d.toUpper ≠ c) (prev : Option Char) (start : ℕ) :
    rule.search prev start u = none := by
  have happ := search_append hrule hu prev start []
  rw [List.append_nil] at happ
  rw [happ, search_nil (hrule _ [] rfl)]

theorem sDashS_letter (prev : Option Char) (s : Text) (h : skipLetter 'S' s = none) :
    sDashS.matchAt prev s = none := by simp [sDashS, h]

theorem sxxFormat_letter (prev : Option Char) (s : Text) (h : skipLetter 'S' s = none) :
    sxxFormat.matchAt prev s = none := by simp [sxxFormat, h]

theorem epToEpRange_letter (prev : Option Char) (s : Text) (h : skipLetter 'E' s = none) :
    epToEpRange.matchAt prev s = none := by simp [epToEpRange, h]

theorem epPrefix_letter (prev : Option Char) (s : Text) (h : skipLetter 'E' s = none) :
    epPrefix.matchAt prev s = none := by simp [epPrefix, h]

/-- A number of at most `k` digits is read, and any other one is not. -/
theorem number_padTo {k : ℕ} (hk : 0 < k) (hw : w ≤ k) (hr : ∀ c ∈ r.head?, c.isDigit = false) :
    number k (padTo w s ++ r) = if s < 10 ^ k then some (s, r) else none := by
  have hpos : 1 ≤ (padTo w s).length := List.length_pos_of_ne_nil (padTo_ne_nil w s)
  have hlen := @length_padTo_le_iff w s k hk hw
  rw [number, digits_padTo hr, dropWhile_padTo hr, toNat_padTo]
  simp [hpos, hlen]

theorem toUpper_padTo_ne {c : Char} (hc : c.isDigit = false) {w n : ℕ} :
    ∀ d ∈ padTo w n, d.toUpper ≠ c := by
  intro d hd he
  have hdigit := isDigit_of_mem_padTo hd
  rw [toUpper_of_isDigit hdigit] at he
  rw [he, hc] at hdigit
  simp at hdigit

/-- The text of a number does not start with a letter. -/
theorem skipLetter_padTo {c : Char} (hc : c.isDigit = false) (w n : ℕ) (r : Text) :
    skipLetter c (padTo w n ++ r) = none := by
  obtain ⟨d, u, hu⟩ := List.exists_cons_of_ne_nil (padTo_ne_nil w n)
  have hmem : d ∈ padTo w n := by
    rw [hu]
    exact List.mem_cons_self
  rw [hu, List.cons_append]
  exact skipLetter_of_ne (toUpper_padTo_ne hc d hmem) _

theorem dropWhile_space_padTo (w n : ℕ) (r : Text) :
    (padTo w n ++ r).dropWhile isSpace = padTo w n ++ r := by
  obtain ⟨d, u, hu⟩ := List.exists_cons_of_ne_nil (padTo_ne_nil w n)
  have hmem : d ∈ padTo w n := by
    rw [hu]
    exact List.mem_cons_self
  have hd : isSpace d = false := isSpace_of_isDigit (isDigit_of_mem_padTo hmem)
  rw [hu, List.cons_append, List.dropWhile_cons_of_neg (by simp [hd])]

/-- What follows the season in a record. -/
def episodePart (w b e : ℕ) : Text := 'E' :: (padTo w b ++ spanTail w b e)

theorem recordText_eq' :
    MediaInfo.recordText w s b e = 'S' :: (padTo 2 s ++ ' ' :: episodePart w b e) := recordText_eq

theorem toUpper_episodePart_ne : ∀ d ∈ episodePart w b e, d.toUpper ≠ 'S' := by
  have hdigits := fun n => @toUpper_padTo_ne 'S' (by decide) w n
  intro d hd
  simp only [episodePart, spanTail, List.mem_cons, List.mem_append] at hd
  rcases hd with rfl | hd | hd
  · decide
  · exact hdigits b d hd
  · split at hd
    · simp at hd
    · rcases List.mem_cons.mp hd with rfl | hd
      · decide
      · rcases List.mem_cons.mp hd with rfl | hd
        · decide
        · exact hdigits e d hd

/-- Nothing behind the letter of the season starts with it. -/
theorem toUpper_rest_ne : ∀ d ∈ padTo 2 s ++ ' ' :: episodePart w b e, d.toUpper ≠ 'S' := by
  intro d hd
  rcases List.mem_append.mp hd with hd | hd
  · exact toUpper_padTo_ne (by decide) d hd
  · rcases List.mem_cons.mp hd with rfl | hd
    · decide
    · exact toUpper_episodePart_ne d hd

theorem number_season : number 2 (padTo 2 s ++ ' ' :: episodePart w b e) =
    if s < 100 then some (s, ' ' :: episodePart w b e) else none :=
  number_padTo (by decide) le_rfl blank_not_digit

theorem dropWhile_episodePart : (' ' :: episodePart w b e).dropWhile isSpace = episodePart w b e := by
  have hblank : isSpace ' ' = true := by decide
  have hletter : isSpace 'E' = false := by decide
  simp [episodePart, hblank, hletter]

theorem skipDash_episodePart : skipDash (episodePart w b e) = none := by
  simp [episodePart, skipDash]

theorem search_sDashS : sDashS.search none 0 (MediaInfo.recordText w s b e) = none := by
  have hletter : skipLetter 'E' (padTo 2 s ++ ' ' :: episodePart w b e) = none :=
    skipLetter_padTo (by decide) 2 s _
  have hnone : sDashS.matchAt none (MediaInfo.recordText w s b e) = none := by
    rw [recordText_eq', sDashS]
    simp only [skipLetter_season, Option.bind_eq_bind, Option.bind_some, hletter,
      Option.getD_none, dropWhile_space_padTo, number_season]
    by_cases h : s < 100
    · simp [h, dropWhile_episodePart, skipDash_episodePart]
    · simp [h]
  rw [recordText_eq'] at hnone ⊢
  rw [search_cons hnone, search_none sDashS_letter toUpper_rest_ne]

theorem search_sxxFormat : sxxFormat.search none 0 (MediaInfo.recordText w s b e) =
    if s < 100 then some ((s, none), 0, 1 + (padTo 2 s).length) else none := by
  have hmatch : sxxFormat.matchAt none (MediaInfo.recordText w s b e) =
      if s < 100 then some ((s, none), ' ' :: episodePart w b e) else none := by
    have hends : wordEnds (' ' :: episodePart w b e) = true := rfl
    rw [recordText_eq', sxxFormat]
    simp only [skipLetter_season, Option.bind_eq_bind, Option.bind_some, number_season]
    by_cases h : s < 100
    · simp [h, wordStarts, hends, dropWhile_episodePart, skipDash_episodePart]
    · simp [h]
  by_cases h : s < 100
  · rw [if_pos h] at hmatch ⊢
    rw [search_of_match hmatch, recordText_eq']
    simp
    omega
  · rw [if_neg h] at hmatch ⊢
    rw [recordText_eq'] at hmatch ⊢
    rw [search_cons hmatch, search_none sxxFormat_letter toUpper_rest_ne]

/-- Nothing in front of the letter of the episodes starts with it. -/
theorem recordText_append :
    MediaInfo.recordText w s b e = ('S' :: padTo 2 s ++ [' ']) ++ episodePart w b e := by
  simp [recordText_eq']

theorem toUpper_season_ne : ∀ d ∈ 'S' :: padTo 2 s ++ [' '], d.toUpper ≠ 'E' := by
  intro d hd
  rcases List.mem_append.mp hd with hd | hd
  · rcases List.mem_cons.mp hd with rfl | hd
    · decide
    · exact toUpper_padTo_ne (by decide) d hd
  · obtain rfl := List.mem_singleton.mp hd
    decide

/-- A rule for episodes looks at a record from the letter of the episodes on. -/
theorem search_episodePart {rule : TitleRule}
    (hrule : ∀ prev s, skipLetter 'E' s = none → rule.matchAt prev s = none) :
    rule.search none 0 (MediaInfo.recordText w s b e) =
      rule.search (some ' ') (2 + (padTo 2 s).length) (episodePart w b e) := by
  have hlast : ('S' :: padTo 2 s ++ [' ']).getLast?.or none = some ' ' := by
    rw [List.getLast?_append]
    rfl
  rw [recordText_append, search_append hrule toUpper_season_ne, hlast]
  congr 1
  simp
  omega

theorem number_episode (hw : w ≤ 4) : number 4 (padTo w b ++ spanTail w b e) =
    if b < 10000 then some (b, spanTail w b e) else none :=
  number_padTo (by decide) hw head_spanTail

theorem skipLetter_p (n : ℕ) (r : Text) : (skipLetter 'P' (padTo w n ++ r)).getD (padTo w n ++ r) =
    padTo w n ++ r := by
  rw [skipLetter_padTo (by decide)]
  rfl

theorem toUpper_single_ne : ∀ d ∈ padTo w b ++ spanTail w b b, d.toUpper ≠ 'E' := by
  intro d hd
  refine toUpper_padTo_ne (by decide) d (w := w) (n := b) ?_
  simpa [spanTail] using hd

/-- A lone episode is no span. -/
theorem search_epToEpRange_single (hw : w ≤ 4) :
    epToEpRange.search none 0 (MediaInfo.recordText w s b b) = none := by
  have hdash : skipDash (spanTail w b b) = none := by simp [spanTail, skipDash]
  have hnone : epToEpRange.matchAt (some ' ') (episodePart w b b) = none := by
    rw [episodePart, epToEpRange]
    simp only [skipLetter_episode, Option.bind_eq_bind, Option.bind_some, skipLetter_p,
      number_episode hw]
    by_cases h : b < 10000
    · simp [h, hdash]
    · simp [h]
  rw [search_episodePart epToEpRange_letter]
  rw [episodePart] at hnone ⊢
  rw [search_cons hnone, search_none epToEpRange_letter toUpper_single_ne]

theorem search_epPrefix_single (hw : w ≤ 4) :
    epPrefix.search none 0 (MediaInfo.recordText w s b b) =
      if b < 10000 then some ((b, none), 2 + (padTo 2 s).length,
        2 + (padTo 2 s).length + (episodePart w b b).length) else none := by
  have hnumber : number 4 (padTo w b ++ spanTail w b b) = if b < 10000 then some (b, []) else none := by
    rw [number_episode hw]
    simp [spanTail]
  have hmatch : epPrefix.matchAt (some ' ') (episodePart w b b) =
      if b < 10000 then some ((b, none), []) else none := by
    rw [episodePart, epPrefix]
    simp only [skipLetter_episode, Option.bind_eq_bind, Option.bind_some, skipLetter_p, hnumber]
    by_cases h : b < 10000
    · simp only [h, if_true]
      rfl
    · simp [h]
  rw [search_episodePart epPrefix_letter]
  by_cases h : b < 10000
  · rw [if_pos h] at hmatch ⊢
    rw [search_of_match hmatch]
    rfl
  · rw [if_neg h] at hmatch ⊢
    rw [episodePart] at hmatch ⊢
    rw [search_cons hmatch, search_none epPrefix_letter toUpper_single_ne]

/-! ### The rules in sequence -/

section

variable {rule : TitleRule} {x : Extracted} {text : Text} {found : Numbers} {stop : ℕ}

theorem applyRule_none (h : rule.search none 0 text = none) : applyRule text x rule = x := by
  rw [applyRule, h]
  simp

theorem applyRule_season (hc : rule.category = .season) (hx : x.season = none)
    (hfree : x.consumed = []) (h : rule.search none 0 text = some (found, start, stop)) :
    applyRule text x rule = { x with season := some found, consumed := [(start, stop)] } := by
  simp [applyRule, hc, hx, hfree, h]

theorem applyRule_episode (hc : rule.category = .episode) (hx : x.episode = none)
    (hfree : ∀ used ∈ x.consumed, used.2 ≤ start)
    (h : rule.search none 0 text = some (found, start, stop)) :
    applyRule text x rule =
      { x with episode := some found, consumed := x.consumed ++ [(start, stop)] } := by
  have hany : (x.consumed.any fun used => start < used.2 ∧ used.1 < stop) = false := by
    rw [List.any_eq_false]
    intro used hused
    have := hfree used hused
    simp
    omega
  simp only [applyRule, hc, hx, h, hany]
  rfl

end

/-- What the two rules for seasons find in a record. -/
theorem applyRules_season :
    ∃ x : Extracted, applyRule (MediaInfo.recordText w s b e)
        (applyRule (MediaInfo.recordText w s b e) {} sDashS) sxxFormat = x ∧
      x.season = (if s < 100 then some (s, none) else none) ∧ x.episode = none ∧
      ∀ used ∈ x.consumed, used.2 ≤ 2 + (padTo 2 s).length := by
  have hsearch := @search_sxxFormat w s b e
  rw [applyRule_none search_sDashS]
  by_cases hs : s < 100
  · rw [if_pos hs] at hsearch ⊢
    refine ⟨_, applyRule_season rfl rfl rfl hsearch, rfl, rfl, ?_⟩
    intro used hused
    obtain rfl := List.mem_singleton.mp hused
    simp only
    omega
  · rw [if_neg hs] at hsearch ⊢
    exact ⟨_, applyRule_none hsearch, rfl, rfl, by simp⟩

/-- What the rules find for a lone episode: the season has at most two digits, the episode at
most four. -/
theorem extractAll_single (hw : w ≤ 4) :
    (extractAll (MediaInfo.recordText w s b b)).season =
        (if s < 100 then some (s, none) else none) ∧
      (extractAll (MediaInfo.recordText w s b b)).episode =
        if b < 10000 then some (b, none) else none := by
  obtain ⟨x, hx, hseason, hepisode, hfree⟩ := @applyRules_season w s b b
  have hprefix := @search_epPrefix_single w s b hw
  simp only [extractAll, titleRules, List.foldl_cons, List.foldl_nil, hx]
  rw [applyRule_none (search_epToEpRange_single hw)]
  by_cases hb : b < 10000
  · rw [if_pos hb] at hprefix ⊢
    rw [applyRule_episode rfl hepisode hfree hprefix]
    exact ⟨hseason, rfl⟩
  · rw [if_neg hb] at hprefix ⊢
    rw [applyRule_none hprefix]
    exact ⟨hseason, hepisode⟩

/-! ### Reopening -/

theorem reopened_eq {text : Text} (hne : text ≠ []) (hprofile : profile text = none) :
    reopened profile text =
      ((buildResult (extractAll text)).season,
        match (buildResult (extractAll text)).episode with
        | none => []
        | some b =>
          let e := match (buildResult (extractAll text)).endEpisode with
            | none | some 0 => b
            | some e => e
          List.range' b (e + 1 - b)) := by
  rw [reopened, parseRecord, if_neg hne, hprofile]
  rfl

theorem recordText_ne_nil : MediaInfo.recordText w s b e ≠ [] := by simp [recordText_eq]

/-- A lone episode is put back where it has at most four digits, in its season where that has
at most two. -/
theorem reopened_single (hw : w ≤ 4) (hprofile : profile (MediaInfo.recordText w s b b) = none) :
    reopened profile (MediaInfo.recordText w s b b) =
      (if s < 100 then some s else if b < 10000 then some 1 else none,
        if b < 10000 then [b] else []) := by
  obtain ⟨hseason, hepisode⟩ := @extractAll_single w s b hw
  rw [reopened_eq recordText_ne_nil hprofile]
  by_cases hs : s < 100 <;> by_cases hb : b < 10000 <;>
    simp [buildResult, hseason, hepisode, hs, hb]

example : reopened (fun _ => none) (of "S01 E01-E12") = (some 1, List.range' 1 12) := by decide

/-! ## What a reader finds -/

/-- The library check finds the episodes for their season, and none for another. -/
def DecodedByLibrary (text : Text) (s : ℕ) (episodes : List ℕ) : Prop :=
  ∀ q, recordedEpisodes q text = some (if q = s then episodes else [])

/-- The progress of a season has the episodes for their season, and none for another. -/
def DecodedByProgress (text : Text) (s : ℕ) (episodes : List ℕ) : Prop :=
  ∀ start, presentEpisodes s start (some text) = episodes ∧
    ∀ q, orFirst q ≠ s → presentEpisodes q start (some text) = []

/-- The season and the episodes are those put back after a failed transfer. -/
def DecodedByReopening (profile : Text → Option ParsedNumbers) (text : Text) (s : ℕ)
    (episodes : List ℕ) : Prop :=
  reopened profile text = (some s, episodes)

/-- All three readers find the season and the episodes. -/
def Decoded (profile : Text → Option ParsedNumbers) (text : Text) (s : ℕ) (episodes : List ℕ) :
    Prop :=
  DecodedByLibrary text s episodes ∧ DecodedByProgress text s episodes ∧
    DecodedByReopening profile text s episodes

theorem decodedByLibrary_iff (hle : b ≤ e) :
    DecodedByLibrary (MediaInfo.recordText w s b e) s (List.range' b (e + 1 - b)) ↔ b = e := by
  constructor
  · intro h
    by_contra hne
    have hs := h s
    rw [recordedEpisodes_span hne] at hs
    simp at hs
  · rintro rfl q
    rw [recordedEpisodes_single]
    simp

theorem decodedByProgress_iff (hle : b ≤ e) :
    DecodedByProgress (MediaInfo.recordText w s b e) s (List.range' b (e + 1 - b)) ↔ 1 ≤ s := by
  have hne : List.range' b (e + 1 - b) ≠ [] := by simp; omega
  constructor
  · intro h
    have hs := (h 0).1
    by_contra hzero
    obtain rfl : s = 0 := by omega
    rw [presentEpisodes_recordText] at hs
    simp [orFirst] at hs
    omega
  · intro h start
    have hs : orFirst s = s := by
      rw [orFirst, if_neg (by omega)]
    refine ⟨by simp [presentEpisodes_recordText, hs], ?_⟩
    intro q hq
    simp [presentEpisodes_recordText, hq]

theorem decodedByReopening_single_iff (hw : w ≤ 4)
    (hprofile : profile (MediaInfo.recordText w s b b) = none) :
    DecodedByReopening profile (MediaInfo.recordText w s b b) s [b] ↔ s ≤ 99 ∧ b ≤ 9999 := by
  rw [DecodedByReopening, reopened_single hw hprofile]
  by_cases hs : s < 100 <;> by_cases hb : b < 10000
  · simp [hs, hb]
    omega
  · simp [hs, hb]
    omega
  · simp [hs, hb]
    omega
  · simp [hs, hb]
    omega

/-- **When every reader finds the season and the episodes of an item**: it has a single episode
of at most four digits, in a season from the first to the ninety-ninth. -/
theorem decoded_iff {m : MediaInfo} (hm : m.type ≠ some .movie) (hs : m.getSeasonList = [s])
    (he : m.getEpisodeList ≠ []) (hprofile : profile m.getSeasonEpisodeString = none) :
    Decoded profile m.getSeasonEpisodeString s m.getEpisodeList ↔
      (1 ≤ s ∧ s ≤ 99) ∧ ∃ n ≤ 9999, m.getEpisodeList = [n] := by
  obtain ⟨w, b, e, hw, hle, hlist, htext⟩ := MediaInfo.getSeasonEpisodeString_eq hm hs he
  rw [htext] at hprofile
  rw [Decoded, htext, hlist, decodedByLibrary_iff hle, decodedByProgress_iff hle]
  constructor
  · rintro ⟨rfl, hfirst, hreopen⟩
    have hone : List.range' b (b + 1 - b) = [b] := by simp
    rw [hone] at hreopen ⊢
    have hbound := (decodedByReopening_single_iff (by omega) hprofile).mp hreopen
    exact ⟨⟨hfirst, hbound.1⟩, b, hbound.2, rfl⟩
  · rintro ⟨⟨hfirst, hlast⟩, n, hn, hone⟩
    have hlen := congrArg List.length hone
    simp only [List.length_range', List.length_singleton] at hlen
    obtain rfl : b = e := by omega
    obtain rfl : b = n := by simpa using hone
    refine ⟨rfl, hfirst, ?_⟩
    rw [hone]
    exact (decodedByReopening_single_iff (by omega) hprofile).mpr ⟨hlast, hn⟩

/-- One file with two episodes. -/
def doubleEpisode : MediaInfo :=
  { type := some .tv, beginSeason := some 1, beginEpisode := some 1, endEpisode := some 2 }

/-- One file with the fifth episode. -/
def fifthEpisode : MediaInfo :=
  { type := some .tv, beginSeason := some 1, beginEpisode := some 5 }

theorem decoded_iff_fifth :
    Decoded (fun _ => none) fifthEpisode.getSeasonEpisodeString 1 fifthEpisode.getEpisodeList ↔
      (1 ≤ 1 ∧ 1 ≤ 99) ∧ ∃ n ≤ 9999, fifthEpisode.getEpisodeList = [n] :=
  decoded_iff (by decide) (by decide) (by decide) rfl

/-- The library check cannot read the record of two episodes. -/
theorem double_episode_unread :
    doubleEpisode.getSeasonList = [1] ∧ doubleEpisode.getEpisodeList = [1, 2] ∧
      recordedEpisodes 1 doubleEpisode.getSeasonEpisodeString = none ∧
      ¬ Decoded (fun _ => none) doubleEpisode.getSeasonEpisodeString 1 [1, 2] := by
  refine ⟨by decide, by decide, by decide, ?_⟩
  intro h
  have hread := h.1 1
  rw [show recordedEpisodes 1 doubleEpisode.getSeasonEpisodeString = none by decide] at hread
  simp at hread

end WolfNas
