import WolfNas.Media.Ref

/-!
# The season and the episodes of an item as text

The download and the transfer history keep the season and the episodes of an item as one
text, such as `S01 E05` or `S01 E01-E02`.  This module holds the functions that write it, and
the reader of the library check.

## Main definitions

* `MediaInfo.getEpisodeBit`, `MediaInfo.getEpisodeString`, `MediaInfo.getSeasonEpisodeString` —
  the text of an item.
* `MediaInfo.getSeasonSeq`, `MediaInfo.getEpisodeSeqs`, `MediaInfo.getSeasonItem`,
  `MediaInfo.getEpisodeItems` — what the name formats put in.
* `MediaInfo.isInSeason`, `MediaInfo.getName` — what the library check asks of a parsed file.
* `recordedEpisodes` — the episodes of a season that the library check reads from the text.
-/

namespace WolfNas

open Text

namespace MediaInfo

variable (m : MediaInfo)

/-! ## Writing -/

/-- `_get_tmdb_season_episode_count`. -/
def getTmdbSeasonEpisodeCount : ℕ :=
  match m.beginSeason with
  | none => 0
  | some n => ((m.seasonCounts.find? fun s => s.1 = n).map Prod.snd).getD 0

/-- `get_episode_bit`: seasons of more than 99 episodes take three digits. -/
def getEpisodeBit : ℕ :=
  if 99 < max (max (m.beginEpisode.getD 0) (m.endEpisode.getD 0))
      (max m.totalEpisodes m.getTmdbSeasonEpisodeCount) then 3
  else 2

/-- `get_episode_string`. -/
def getEpisodeString : Text :=
  match m.beginEpisode, m.endEpisode with
  | none, _ => []
  | some b, none => 'E' :: padTo m.getEpisodeBit b
  | some b, some e =>
    if e = b then 'E' :: padTo m.getEpisodeBit b
    else 'E' :: padTo m.getEpisodeBit b ++ of "-E" ++ padTo m.getEpisodeBit e

/-- `get_season_episode_string`. -/
def getSeasonEpisodeString : Text :=
  if m.type = some .movie then []
  else if m.getSeasonString ≠ [] ∧ m.getEpisodeString ≠ [] then
    m.getSeasonString ++ ' ' :: m.getEpisodeString
  else if m.getSeasonString ≠ [] then m.getSeasonString
  else m.getEpisodeString

/-- `get_season_item`. -/
def getSeasonItem : Text :=
  match m.beginSeason with
  | some b => 'S' :: pad2 b
  | none => if m.type = some .movie then [] else of "S01"

/-- `get_season_seq`. -/
def getSeasonSeq : Text :=
  match m.seasonSeq with
  | some n => Text.ofNat n
  | none => []

/-- `get_episode_items`: the letter stands there without any episode, too. -/
def getEpisodeItems : Text :=
  'E' :: List.intercalate ['E'] (m.getEpisodeList.map (padTo m.getEpisodeBit))

/-- `get_episode_seqs`: the numbers are padded in seasons of more than 99 episodes only. -/
def getEpisodeSeqs : Text :=
  let pad := if 2 < m.getEpisodeBit then m.getEpisodeBit else 0
  match m.getEpisodeList with
  | [] => []
  | [e] => padTo pad e
  | b :: rest => padTo pad b ++ '-' :: padTo pad (rest.getLastD b)

/-- The text of one season and a span of episodes. -/
def recordText (width s b e : ℕ) : Text :=
  'S' :: padTo 2 s ++ ' ' :: 'E' :: padTo width b ++ if b = e then [] else '-' :: 'E' :: padTo width e

/-- What is written for an item of one season with episodes. -/
theorem getSeasonEpisodeString_eq {s : ℕ} {m : MediaInfo} (hm : m.type ≠ some .movie)
    (hs : m.getSeasonList = [s]) (he : m.getEpisodeList ≠ []) :
    ∃ width b e, width ≤ 3 ∧ b ≤ e ∧ m.getEpisodeList = List.range' b (e + 1 - b) ∧
      m.getSeasonEpisodeString = recordText width s b e := by
  have hseason : m.getSeasonString = 'S' :: padTo 2 s := by
    rw [getSeasonList] at hs
    rw [getSeasonString, if_neg hm]
    cases hb : m.beginSeason with
    | none =>
      obtain rfl : 1 = s := by simpa [hb, hm] using hs
      rfl
    | some x =>
      cases hx : m.endSeason with
      | none =>
        obtain rfl : x = s := by simpa [hb, hx] using hs
        simp [pad2_eq]
      | some y =>
        simp only [hb, hx] at hs
        have hlen := congrArg List.length hs
        simp only [List.length_range', List.length_singleton] at hlen
        obtain rfl : y = x := by omega
        obtain rfl : y = s := by simpa using hs
        simp [pad2_eq]
  have hwidth : m.getEpisodeBit ≤ 3 := by
    rw [getEpisodeBit]
    split <;> omega
  rw [getEpisodeList] at he
  rw [getSeasonEpisodeString, if_neg hm, hseason, getEpisodeString, getEpisodeList]
  cases hb : m.beginEpisode with
  | none => simp [hb] at he
  | some b =>
    cases hx : m.endEpisode with
    | none => exact ⟨m.getEpisodeBit, b, b, hwidth, le_rfl, by simp, by simp [recordText]⟩
    | some e =>
      have hle : b ≤ e := by
        by_contra hlt
        have hzero : e + 1 - b = 0 := by omega
        simp [hb, hx, hzero] at he
      refine ⟨m.getEpisodeBit, b, e, hwidth, hle, rfl, ?_⟩
      by_cases heq : e = b
      · simp [recordText, heq]
      · simp [recordText, heq, Ne.symm heq, of]

/-! ## What is asked of a parsed file -/

/-- `is_in_season`. -/
def isInSeason (season : ℕ) : Bool :=
  match m.beginSeason, m.endSeason with
  | some b, some e => b ≤ season ∧ season ≤ e
  | none, some _ => false
  | some b, none => season = b
  | none, none => season = 1

/-- `StringUtils.is_all_chinese`. -/
def isAllChinese (s : Text) : Bool :=
  s ≠ [] ∧ s.all fun c => c = ' ' || (0x4e00 ≤ c.toNat && c.toNat ≤ 0x9fff)

/-- `get_name`. -/
def getName : Text :=
  if isAllChinese (orEmpty m.cnName) then orEmpty m.cnName
  else if orEmpty m.enName ≠ [] then orEmpty m.enName
  else orEmpty m.cnName

end MediaInfo

/-! ## The reader of the library check -/

/-- The episodes of the season that a record's text names, as the library check reads it;
nothing where an exception ends the reading.  The two ends of a span stand around a dash, so
neither is negative. -/
def recordedEpisodes (season : ℕ) (se : Text) : Option (List ℕ) :=
  match ((se.filter (· ≠ 'S')).splitOn 'E').map strip with
  | s :: ep :: _ =>
    if s.isDigit ∧ s.toNat = season then
      if '-' ∈ ep then
        match ep.splitOn '-' with
        | [a, b] => do
          let a ← parseInt a
          let b ← parseInt b
          return List.range' a.toNat (b.toNat + 1 - a.toNat)
        | _ => none
      else if ep.isDigit then some [ep.toNat]
      else some []
    else some []
  | _ => some []

end WolfNas
