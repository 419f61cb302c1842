import WolfNas.Media.EpisodeReaders

/-!
# The guard before a subscription downloads again

A subscription passes over a candidate while a download of the same work is under way that has
episodes in common with it.  The rows of the history are found by four columns, none of which tells
a film from a series, and the episodes are read back from the text of each row: a span is cut after
201 episodes, of a span of seasons only the two ends are read, and a season that stands without
episodes counts as a whole only where the text names no episode at all.

## Main definitions

* `DownloadHistoryRow`, `hasActiveDownloadForMedia`, `filterCandidates` — the guard.
* `Denotes`, `Meets` — the episodes that a text stands for, and texts that have some in common.
* `Blocks` — a download under way that a candidate has to wait for.
* `Imagined`, `Overlooked` — the two ways to misread a pair of texts.
* `ReadRight` — the downloads under way are read right for a candidate.

## Main results

* `clash_iff` — what the guard makes of two texts.
* `dropped_iff` — the guard drops what it should exactly where the rows are read right.
-/

namespace WolfNas

namespace DownloadGuard

open Text

/-- A row of the download history, as far as the guard asks for it. -/
structure DownloadHistoryRow where
  type : Text
  state : Text
  se : Option Text := none
  tmdbId : Option Text := none
  identityId : Option Text := none
  anchorProvider : Option Text := none
  anchorExternalId : Option Text := none
  seriesKey : Option Text := none
  deriving DecidableEq, Repr

/-- The states of a download under way. -/
def underWay : List Text :=
  ["pending", "queued", "downloading", "paused", "retrying", "blocked", "running"].map of

/-- The conditions on the columns, as far as the media item fills them. -/
def conditions (m : MediaInfo) : List (DownloadHistoryRow → Bool) :=
  (if orEmpty m.identityId ≠ [] then [fun r => decide (r.identityId = m.identityId)] else []) ++
  (if orEmpty m.anchorProvider ≠ [] ∧ orEmpty m.anchorExternalId ≠ [] then
    [fun r => decide (r.anchorProvider = m.anchorProvider ∧
      r.anchorExternalId = m.anchorExternalId)] else []) ++
  (if m.tmdbId.toText.strip.isDigit then [fun r => decide (r.tmdbId = some m.tmdbId.toText)]
    else []) ++
  (if orEmpty m.seriesKey ≠ [] then [fun r => decide (r.seriesKey = m.seriesKey)] else [])

/-- The places of a text behind the letter of a season that has a number.  No match of the pattern
holds another such letter, so they are where its matches stand. -/
def seasonPlaces : Text → List Text
  | [] => []
  | c :: s =>
    if c.toUpper = 'S' ∧ digits s ≠ [] then s :: seasonPlaces s else seasonPlaces s

/-- The season at a place. -/
def seasonAt (s : Text) : ℕ := toNat (digits s)

/-- The episodes at a place, the first 201 of them. -/
def pairsAt (s : Text) : List (ℕ × ℕ) :=
  match episodeSpanAt s with
  | none => []
  | some (b, e) => (List.range' b (min e (b + 200) + 1 - b)).map fun x => (seasonAt s, x)

/-- `pairs`. -/
def pairs (value : Text) : List (ℕ × ℕ) × List ℕ :=
  ((seasonPlaces value).flatMap pairsAt, (seasonPlaces value).map seasonAt)

/-- The body of the loop over the rows, on the text of one. -/
def clash (target active : Text) : Bool :=
  if active = [] then true
  else
    let (activePairs, activeSeasons) := pairs active
    let (targetPairs, targetSeasons) := pairs target
    (!activePairs.isEmpty && !targetPairs.isEmpty && activePairs.any (· ∈ targetPairs)) ||
      (activeSeasons.any (· ∈ targetSeasons) && (targetPairs.isEmpty || activePairs.isEmpty))

/-- `has_active_download_for_media`. -/
def hasActiveDownloadForMedia (history : List DownloadHistoryRow) (m : MediaInfo)
    (seasonEpisode : Text) : Bool :=
  if (conditions m).isEmpty then false
  else
    let rows := history.filter fun r => decide (r.state ∈ underWay) && (conditions m).any (· r)
    let target := seasonEpisode.strip
    if rows.isEmpty then false
    else if target = [] then true
    else rows.any fun r => clash target (orEmpty r.se).strip

/-- `filter_candidates`. -/
def filterCandidates (history : List DownloadHistoryRow) (mediaList : List MediaInfo)
    (overEdition : Bool) : List MediaInfo :=
  if overEdition then mediaList
  else mediaList.filter fun m =>
    !hasActiveDownloadForMedia history m m.getSeasonEpisodeString.strip

/-! ## What a text stands for -/

/-- What follows the span of seasons at a place, and the last season of it. -/
def throughSeason (s : Text) : Option Text :=
  match (s.dropWhile Char.isDigit).dropWhile isSpace with
  | [] => none
  | c :: s =>
    if c = '-' ∨ c = '~' then
      match s.dropWhile isSpace with
      | [] => none
      | d :: s => if d.toUpper = 'S' ∧ digits s ≠ [] then some s else none
    else none

/-- Where the last season of a place stands: a span of seasons goes on to another. -/
def lastPlace (s : Text) : Text := (throughSeason s).getD s

/-- A place stands for an episode of a season: the season is within its seasons, and the episode
is within its episodes, or it has none and stands for all of them. -/
def DenotesAt (s : Text) (p : ℕ × ℕ) : Prop :=
  (seasonAt s ≤ p.1 ∧ p.1 ≤ seasonAt (lastPlace s)) ∧
    ∀ span, episodeSpanAt (lastPlace s) = some span → span.1 ≤ p.2 ∧ p.2 ≤ span.2

/-- A text stands for an episode of a season; the empty text stands for the whole work. -/
def Denotes (t : Text) (p : ℕ × ℕ) : Prop := t = [] ∨ ∃ s ∈ seasonPlaces t, DenotesAt s p

/-- Two texts have an episode in common. -/
def Meets (a b : Text) : Prop := ∃ p, Denotes a p ∧ Denotes b p

/-- A text counts an episode: it is one of the first 201 of a span right behind its season. -/
def Counts (t : Text) (p : ℕ × ℕ) : Prop := p ∈ (pairs t).1

/-- A text names a season. -/
def Names (t : Text) (n : ℕ) : Prop := n ∈ (pairs t).2

/-- One of the texts is the whole work; or they name a season in common, and one of them counts no
episode. -/
def WholeSeason (a b : Text) : Prop :=
  a = [] ∨ b = [] ∨
    (∃ n, Names a n ∧ Names b n) ∧ ((∀ p, ¬Counts a p) ∨ ∀ p, ¬Counts b p)

/-- The texts have no episode in common, but a work or a season that is taken for a whole. -/
def Imagined (a b : Text) : Prop := ¬Meets a b ∧ WholeSeason a b

/-- The texts have episodes in common, but none that both count, and no season that is taken for a
whole. -/
def Overlooked (a b : Text) : Prop :=
  Meets a b ∧ ¬WholeSeason a b ∧ ∀ p, ¬(Counts a p ∧ Counts b p)

variable {s t a b : Text} {p : ℕ × ℕ} {n : ℕ}

theorem mem_pairsAt :
    p ∈ pairsAt s ↔
      p.1 = seasonAt s ∧
        ∃ span, episodeSpanAt s = some span ∧ span.1 ≤ p.2 ∧ p.2 ≤ span.2 ∧ p.2 ≤ span.1 + 200 := by
  rw [pairsAt]
  cases hspan : episodeSpanAt s with
  | none => simp
  | some span =>
    simp only [List.mem_map, List.mem_range'_1, Option.some.injEq, exists_eq_left']
    constructor
    · rintro ⟨x, hx, rfl⟩
      exact ⟨rfl, hx.1, by omega, by omega⟩
    · intro ⟨hseason, hx⟩
      exact ⟨p.2, ⟨hx.1, by omega⟩, Prod.ext hseason.symm rfl⟩

theorem counts_iff : Counts t p ↔ ∃ s ∈ seasonPlaces t, p ∈ pairsAt s := by
  simp only [Counts, pairs, List.mem_flatMap]

/-- A season with episodes right behind it is no span of seasons. -/
theorem lastPlace_of_span {span : ℕ × ℕ} (h : episodeSpanAt s = some span) : lastPlace s = s := by
  have hnone : throughSeason s = none := by
    rw [episodeSpanAt] at h
    rw [throughSeason]
    cases hrest : (s.dropWhile Char.isDigit).dropWhile isSpace with
    | nil => rfl
    | cons c rest =>
      rw [hrest] at h
      dsimp only at h ⊢
      split_ifs at h with hletter
      refine if_neg fun hdash => ?_
      rcases hdash with rfl | rfl
      · exact absurd hletter.2.1 (by decide)
      · exact absurd hletter.2.1 (by decide)
  rw [lastPlace, hnone]
  rfl

/-- What a text counts it stands for. -/
theorem denotes_of_counts (h : Counts t p) : Denotes t p := by
  obtain ⟨s, hs, hp⟩ := counts_iff.mp h
  obtain ⟨hseason, span, hspan, hfirst, hlast, -⟩ := mem_pairsAt.mp hp
  refine .inr ⟨s, hs, ?_⟩
  rw [DenotesAt, lastPlace_of_span hspan]
  refine ⟨by omega, ?_⟩
  intro span' hspan'
  obtain rfl := Option.some.inj (hspan.symm.trans hspan')
  exact ⟨hfirst, hlast⟩

private theorem mem_of_mem {l l' : List ℕ} :
    l.any (fun x => decide (x ∈ l')) = true ↔ ∃ x, x ∈ l' ∧ x ∈ l := by
  simp only [List.any_eq_true, decide_eq_true_eq]
  exact exists_congr fun x => and_comm

private theorem isEmpty_iff {α : Type} {l : List α} : l.isEmpty = true ↔ ∀ x, x ∉ l := by
  rw [List.isEmpty_iff, List.eq_nil_iff_forall_not_mem]

/-- **What the guard makes of two texts.** -/
theorem clash_iff :
    (a = [] ∨ clash a b = true) ↔ (∃ p, Counts a p ∧ Counts b p) ∨ WholeSeason a b := by
  have hcounted : (∃ p, Counts a p ∧ Counts b p) ↔
      (!(pairs b).1.isEmpty && !(pairs a).1.isEmpty &&
        (pairs b).1.any fun p => decide (p ∈ (pairs a).1)) = true := by
    simp only [Bool.and_eq_true, List.any_eq_true, decide_eq_true_eq, Bool.not_eq_true',
      Bool.eq_false_iff, Ne, List.isEmpty_iff]
    constructor
    · intro ⟨p, ha, hb⟩
      exact ⟨⟨List.ne_nil_of_mem hb, List.ne_nil_of_mem ha⟩, p, hb, ha⟩
    · intro ⟨_, p, hb, ha⟩
      exact ⟨p, ha, hb⟩
  have hseason : (∃ n, Names a n ∧ Names b n) ∧ ((∀ p, ¬Counts a p) ∨ ∀ p, ¬Counts b p) ↔
      ((pairs b).2.any (fun n => decide (n ∈ (pairs a).2)) &&
        ((pairs a).1.isEmpty || (pairs b).1.isEmpty)) = true := by
    rw [Bool.and_eq_true, mem_of_mem, Bool.or_eq_true, isEmpty_iff, isEmpty_iff]
    rfl
  rw [WholeSeason, hcounted, hseason, clash]
  by_cases ha : a = []
  · simp only [ha, true_or, or_true]
  by_cases hb : b = []
  · simp only [hb, if_true, true_or, or_true]
  · simp only [ha, hb, if_false, false_or, Bool.or_eq_true]

/-- The guard stops at a pair of texts that have episodes in common and are not overlooked, or at
one it imagines them of. -/
theorem clash_iff_read :
    (a = [] ∨ clash a b = true) ↔ Imagined a b ∨ Meets a b ∧ ¬Overlooked a b := by
  have hmeets : (∃ p, Counts a p ∧ Counts b p) → Meets a b := by
    intro ⟨p, ha, hb⟩
    exact ⟨p, denotes_of_counts ha, denotes_of_counts hb⟩
  rw [clash_iff, Imagined, Overlooked]
  by_cases hmeet : Meets a b
  · simp only [hmeet, not_true_eq_false, false_and, true_and, false_or, not_and, not_forall,
      not_not]
    by_cases hwhole : WholeSeason a b
    · simp [hwhole]
    · simp [hwhole]
  · have hnone : ¬∃ p, Counts a p ∧ Counts b p := fun h => hmeet (hmeets h)
    simp only [hmeet, hnone, not_false_eq_true, true_and, false_and, or_false, false_or]

theorem seasonPlaces_of_ne (h : ∀ c ∈ t, c.toUpper ≠ 'S') : seasonPlaces t = [] := by
  induction t with
  | nil => rfl
  | cons c t ih =>
    rw [seasonPlaces, if_neg fun hplace => h c List.mem_cons_self hplace.1,
      ih fun d hd => h d (List.mem_cons_of_mem c hd)]

/-- A text of one season with a span of episodes stands for these. -/
theorem denotes_recordText {w k b e : ℕ} :
    Denotes (MediaInfo.recordText w k b e) p ↔ p.1 = k ∧ b ≤ p.2 ∧ p.2 ≤ e := by
  have hplaces : seasonPlaces (MediaInfo.recordText w k b e) =
      [padTo 2 k ++ ' ' :: episodePart w b e] := by
    have hdigits : digits (padTo 2 k ++ ' ' :: episodePart w b e) ≠ [] := by
      rw [digits_padTo blank_not_digit]
      exact padTo_ne_nil 2 k
    rw [recordText_eq', seasonPlaces, if_pos ⟨by decide, hdigits⟩,
      seasonPlaces_of_ne toUpper_rest_ne]
  have hspan : episodeSpanAt (padTo 2 k ++ ' ' :: episodePart w b e) = some (b, e) :=
    episodeSpanAt_recordText
  have hseason : seasonAt (padTo 2 k ++ ' ' :: episodePart w b e) = k := by
    rw [seasonAt, digits_padTo blank_not_digit, toNat_padTo]
  have hne : MediaInfo.recordText w k b e ≠ [] := by simp [recordText_eq']
  simp only [Denotes, hne, hplaces, false_or, List.mem_singleton, exists_eq_left, DenotesAt,
    lastPlace_of_span hspan, hspan, hseason, Option.some.injEq, forall_eq']
  exact and_congr_left fun _ => by omega

/-! ## The rows of the history -/

/-- The text of a candidate. -/
def targetText (m : MediaInfo) : Text := m.getSeasonEpisodeString.strip

/-- A text of one season with a span of episodes has no blanks around it. -/
theorem strip_recordText {w k b e : ℕ} :
    (MediaInfo.recordText w k b e).strip = MediaInfo.recordText w k b e := by
  obtain ⟨u, x, htext⟩ : ∃ u x, MediaInfo.recordText w k b e = u ++ padTo w x := by
    rw [recordText_eq, spanTail]
    by_cases h : b = e
    · exact ⟨'S' :: (padTo 2 k ++ of " E"), b, by simp [h, of]⟩
    · exact ⟨'S' :: (padTo 2 k ++ (of " E" ++ (padTo w b ++ of "-E"))), e, by simp [h, of]⟩
  have hlast : ∀ c ∈ (MediaInfo.recordText w k b e).getLast?, isSpace c = false := by
    intro c hc
    rw [htext, List.getLast?_append_of_ne_nil _ (padTo_ne_nil w x)] at hc
    exact isSpace_of_isDigit (isDigit_of_mem_padTo (List.mem_of_getLast? hc))
  rw [strip_of_getLast hlast, recordText_eq]
  exact List.dropWhile_cons_of_neg (by decide)

/-- The text of a candidate of one season stands for its episodes. -/
theorem denotes_targetText {m : MediaInfo} {k : ℕ} (hm : m.type ≠ some .movie)
    (hseason : m.getSeasonList = [k]) (hepisodes : m.getEpisodeList ≠ []) :
    Denotes (targetText m) p ↔ p.1 = k ∧ p.2 ∈ m.getEpisodeList := by
  obtain ⟨w, b, e, -, hle, hlist, htext⟩ :=
    MediaInfo.getSeasonEpisodeString_eq hm hseason hepisodes
  rw [targetText, htext, strip_recordText, denotes_recordText, hlist, List.mem_range'_1]
  exact and_congr_right fun _ => by omega

/-- The text of a row. -/
def rowText (r : DownloadHistoryRow) : Text := (orEmpty r.se).strip

/-- A row is of a download of the same work that is under way. -/
def Concerns (m : MediaInfo) (r : DownloadHistoryRow) : Prop :=
  r.state ∈ underWay ∧ (conditions m).any (· r) = true

/-- Both are films, series or anime. -/
def SameType (m : MediaInfo) (r : DownloadHistoryRow) : Prop :=
  r.type = (m.type.map MediaType.value).getD []

/-- **A download that a candidate has to wait for**: it is of the same work and type, and has an
episode in common with it. -/
def Blocks (m : MediaInfo) (r : DownloadHistoryRow) : Prop :=
  Concerns m r ∧ SameType m r ∧ Meets (targetText m) (rowText r)

/-- A row stops a candidate that does not have to wait for it: the texts are imagined to have
something in common, or the work is of another type. -/
def Misleads (m : MediaInfo) (r : DownloadHistoryRow) : Prop :=
  Concerns m r ∧ (Imagined (targetText m) (rowText r) ∨
    ¬SameType m r ∧ Meets (targetText m) (rowText r) ∧ ¬Overlooked (targetText m) (rowText r))

/-- A row of a download that a candidate has to wait for is overlooked. -/
def Escapes (m : MediaInfo) (r : DownloadHistoryRow) : Prop :=
  Concerns m r ∧ SameType m r ∧ Overlooked (targetText m) (rowText r)

/-- The rows are read right for a candidate: none misleads and none escapes, unless one that it has
to wait for is read right, or an error of one kind makes up for one of the other. -/
def ReadRight (history : List DownloadHistoryRow) (m : MediaInfo) : Prop :=
  (∃ r ∈ history, Blocks m r ∧ ¬Overlooked (targetText m) (rowText r)) ∨
    ((∃ r ∈ history, Misleads m r) ↔ ∃ r ∈ history, Escapes m r)

variable {history : List DownloadHistoryRow} {m : MediaInfo}

theorem hasActiveDownload_iff :
    hasActiveDownloadForMedia history m m.getSeasonEpisodeString.strip = true ↔
      ∃ r ∈ history, Concerns m r ∧
        (targetText m = [] ∨ clash (targetText m) (rowText r) = true) := by
  have hrows : ∀ r, (r ∈ history.filter fun r => decide (r.state ∈ underWay) &&
      (conditions m).any (· r)) ↔ r ∈ history ∧ Concerns m r := by
    intro r
    rw [List.mem_filter, Bool.and_eq_true, decide_eq_true_eq]
    rfl
  rw [hasActiveDownloadForMedia]
  split_ifs with hconditions
  · refine iff_of_false (by simp) ?_
    rintro ⟨r, -, ⟨-, hany⟩, -⟩
    rw [List.isEmpty_iff.mp hconditions] at hany
    cases hany
  · dsimp only
    rw [strip_strip]
    split_ifs with hempty htarget
    · refine iff_of_false (by simp) ?_
      intro ⟨r, hr, hconcerns, _⟩
      exact isEmpty_iff.mp hempty r ((hrows r).mpr ⟨hr, hconcerns⟩)
    · refine iff_of_true rfl ?_
      obtain ⟨r, hr⟩ := List.exists_mem_of_ne_nil _ fun h => hempty (List.isEmpty_iff.mpr h)
      obtain ⟨hmem, hconcerns⟩ := (hrows r).mp hr
      exact ⟨r, hmem, hconcerns, .inl htarget⟩
    · simp only [List.any_eq_true, hrows, targetText, htarget, false_or, and_assoc]
      rfl

/-- The guard stops a candidate at a row that misleads, or at one that it has to wait for and does
not overlook. -/
theorem hasActiveDownload_iff_read :
    hasActiveDownloadForMedia history m m.getSeasonEpisodeString.strip = true ↔
      (∃ r ∈ history, Misleads m r) ∨
        ∃ r ∈ history, Blocks m r ∧ ¬Overlooked (targetText m) (rowText r) := by
  rw [hasActiveDownload_iff, ← exists_or]
  refine exists_congr fun r => ?_
  rw [← and_or_left]
  refine and_congr_right fun _ => ?_
  rw [clash_iff_read, Misleads, Blocks]
  by_cases htype : SameType m r
  · simp only [htype, not_true_eq_false, false_and, or_false, true_and, and_assoc, ← and_or_left]
  · simp only [htype, not_false_eq_true, false_and, and_false, or_false, true_and]

/-- A download that a candidate has to wait for is overlooked or not. -/
theorem blocks_iff : (∃ r ∈ history, Blocks m r) ↔
    (∃ r ∈ history, Blocks m r ∧ ¬Overlooked (targetText m) (rowText r)) ∨
      ∃ r ∈ history, Escapes m r := by
  rw [← exists_or]
  refine exists_congr fun r => ?_
  rw [← and_or_left]
  refine and_congr_right fun _ => ?_
  by_cases hover : Overlooked (targetText m) (rowText r)
  · have hmeets := hover.1
    simp only [Blocks, Escapes, hover, hmeets, not_true_eq_false, and_false, false_or, and_true]
  · simp only [Escapes, hover, not_false_eq_true, and_true, and_false, or_false]

/-- A film under way. -/
def filmRow : DownloadHistoryRow :=
  { type := of "movie", state := of "downloading", se := some [], tmdbId := some (of "550") }

/-- A long series under way. -/
def longRow : DownloadHistoryRow :=
  { type := of "tv", state := of "downloading", se := some (of "S01 E001-E300"),
    tmdbId := some (of "550") }

/-- An episode of a series with their number. -/
def lateEpisode : MediaInfo :=
  { type := some .tv, tmdbId := .int 550, beginSeason := some 1, beginEpisode := some 250 }

end DownloadGuard

end WolfNas
