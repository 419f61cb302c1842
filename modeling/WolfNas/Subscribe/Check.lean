import WolfNas.Subscribe.RssFeed
import WolfNas.Transfer.Existence

/-!
# The library check of a subscription

Before anything is searched or downloaded for a work, `check_exists_medias` compares what is
wanted with the library.  A series that is reported as there ends its round; of a series that
is not, the missing episodes are filed under its TMDB id.

## Main definitions

* `TotalEp` — how a caller states the number of episodes.
* `totalOf` — the number of episodes the check goes by; zero where it is unknown.
* `CheckEnv.checkExistsMedias` — `check_exists_medias`.
* `CheckEnv.TruthfulCheck` — only what is in the library is reported as there.

## Main results

* `CheckEnv.truthfulCheck_iff` — the check is truthful except for a season of specials.
-/

namespace WolfNas

open Text

/-- The `total_ep` of a caller: the seasons may be given by number or as text. -/
inductive TotalEp
  | none
  | count (n : ℕ)
  | seasons (counts : Dict IdValue ℕ)

/-- The season that is checked. -/
def checkedSeason (m : MediaInfo) : ℕ := m.seasonSeq.getD 1

/-- The number of episodes a caller gives; zero where there is none. -/
def TotalEp.given (t : TotalEp) (season : ℕ) : ℕ :=
  match t with
  | .none => 0
  | .count n => n
  | .seasons counts =>
    match counts.get (.int season) with
    | some n => n
    | Option.none => (counts.get (.text (ofNat season))).getD 0

/-- The number of episodes the check goes by; zero where it is unknown. -/
def totalOf (m : MediaInfo) (t : TotalEp) : ℕ :=
  if t.given (checkedSeason m) = 0 then m.totalEpisodes else t.given (checkedSeason m)

/-- An episode of the checked season is listed as missing. -/
def Reported (m : MediaInfo) (needs : Needs) (e : ℕ) : Prop :=
  ∃ entries, needs.get m.tmdbId = some entries ∧
    ∃ entry ∈ entries, entry.season = checkedSeason m ∧ e ∈ entry.episodes

theorem mem_putSeason (entry : NeedEntry) (entries : List NeedEntry) :
    entry ∈ putSeason entry entries := by
  induction entries with
  | nil => simp [putSeason]
  | cons first rest ih =>
    rw [putSeason]
    split_ifs <;> simp [ih]

namespace CheckEnv

variable (env : CheckEnv) (w : LibraryState)

/-- `check_exists_medias`: whether the work is there, and what is missing. -/
def checkExistsMedias (m : MediaInfo) (noExists : Needs) (t : TotalEp) :
    Except OsError (Bool × Needs) :=
  if m.type = some .movie then do
    let there ← env.movieExists w m
    return (there, noExists)
  else if totalOf m t = 0 then .ok (false, noExists)
  else do
    let missing ← env.missingEpisodes w m (checkedSeason m) (totalOf m t)
    if missing = [] then return (true, noExists)
    else
      let entry : NeedEntry := ⟨checkedSeason m, missing, totalOf m t, 0⟩
      return (false, noExists.set m.tmdbId (putSeason entry ((noExists.get m.tmdbId).getD [])))

/-- The check of a series is truthful: it reports the season as there only where its number
of episodes is known and all of them are in the library, and it lists as missing every episode
that is not. -/
structure TruthfulCheck (m : MediaInfo) (t : TotalEp) (r : Bool × Needs) : Prop where
  complete : r.1 = true → totalOf m t ≠ 0 ∧
    ∀ e ∈ List.range' 1 (totalOf m t), env.InLibrary w m (checkedSeason m) e
  missing : r.1 = false → ∀ e ∈ List.range' 1 (totalOf m t),
    ¬env.InLibrary w m (checkedSeason m) e → Reported m r.2 e

variable {env w} {m : MediaInfo} {noExists : Needs} {t : TotalEp} {r : Bool × Needs}

/-- What the check of a series comes to. -/
theorem checkExistsMedias_cases (hm : m.type ≠ some .movie)
    (h : env.checkExistsMedias w m noExists t = .ok r) :
    (totalOf m t = 0 ∧ r = (false, noExists)) ∨
      (totalOf m t ≠ 0 ∧ ∃ missing,
        env.missingEpisodes w m (checkedSeason m) (totalOf m t) = .ok missing ∧
        (missing = [] ∧ r = (true, noExists) ∨
          missing ≠ [] ∧ r.1 = false ∧ ∀ e ∈ missing, Reported m r.2 e)) := by
  rw [checkExistsMedias, if_neg hm] at h
  by_cases htotal : totalOf m t = 0
  · rw [if_pos htotal] at h
    exact .inl ⟨htotal, (Except.ok.inj h).symm⟩
  · rw [if_neg htotal] at h
    simp only [Raise.bind_ok_iff] at h
    obtain ⟨missing, hmissing, h⟩ := h
    refine .inr ⟨htotal, missing, hmissing, ?_⟩
    split_ifs at h with hnil
    · exact .inl ⟨hnil, (Raise.pure_ok_iff.mp h).symm⟩
    · obtain rfl := Raise.pure_ok_iff.mp h
      refine .inr ⟨hnil, rfl, ?_⟩
      intro e he
      exact ⟨_, Dict.get_set_self _ _ _, _, mem_putSeason _ _, rfl, he⟩

/-- The check of a proper season is truthful. -/
theorem truthfulCheck_of_season (hm : m.type ≠ some .movie)
    (h : env.checkExistsMedias w m noExists t = .ok r) (hseason : checkedSeason m ≠ 0) :
    env.TruthfulCheck w m t r := by
  rcases checkExistsMedias_cases hm h with
    ⟨htotal, rfl⟩ | ⟨htotal, missing, hmissing, ⟨rfl, rfl⟩ | ⟨hnil, hflag, hreported⟩⟩
  · exact ⟨by simp, by simp [htotal]⟩
  · refine ⟨fun _ => ⟨htotal, ?_⟩, by simp⟩
    intro e he
    exact inLibrary_of_not_missing hseason hmissing he (by simp)
  · refine ⟨by simp [hflag], ?_⟩
    intro _ e he hout
    by_contra hnot
    exact hout (inLibrary_of_not_missing hseason hmissing he (mt (hreported e) hnot))

/-- **When the check is truthful**: it reports a series as there, and leaves an episode off
the list, only where the library has it, exactly where the season is not that of the specials,
its number of episodes is unknown, or all of its episodes are in the library. -/
theorem truthfulCheck_iff (env : CheckEnv) (w : LibraryState) (m : MediaInfo) (noExists : Needs)
    (t : TotalEp) (r : Bool × Needs) (hm : m.type ≠ some .movie)
    (h : env.checkExistsMedias w m noExists t = .ok r) :
    env.TruthfulCheck w m t r ↔
      checkedSeason m ≠ 0 ∨ totalOf m t = 0 ∨
        ∀ e ∈ List.range' 1 (totalOf m t), env.InLibrary w m (checkedSeason m) e := by
  by_cases hseason : checkedSeason m = 0
  · rcases checkExistsMedias_cases hm h with
      ⟨htotal, rfl⟩ | ⟨htotal, missing, hmissing, hresult⟩
    · exact iff_of_true ⟨by simp, by simp [htotal]⟩ (.inr (.inl htotal))
    · -- Nothing is missing of the specials, so they are reported as there.
      rw [hseason, missingEpisodes_zero] at hmissing
      obtain rfl := Except.ok.inj hmissing
      obtain ⟨-, rfl⟩ | ⟨hnil, -⟩ := hresult
      · constructor
        · intro htruthful
          exact .inr (.inr (htruthful.complete rfl).2)
        · rintro (hne | hzero | hall)
          · exact absurd hseason hne
          · exact absurd hzero htotal
          · exact ⟨fun _ => ⟨htotal, hall⟩, by simp⟩
      · exact absurd rfl hnil
  · exact iff_of_true (truthfulCheck_of_season hm h hseason) (.inl hseason)

/-- A library without roots. -/
def emptyCheck : CheckEnv where
  lookup :=
    { below := fun _ _ => []
      dirSize := fun _ => 0
      unreachable := fun _ _ => false
      metaInfo := fun _ => none
      isExtras := fun _ => false
      layout := fun _ _ _ => ⟨[], [], []⟩ }
  resolveBackend := fun _ => .ok none
  roots := fun _ => []
  backends := fun _ => []
  categoryFlag := fun _ => false
  destNames := fun _ => ([], [])
  listed := fun _ _ => none

/-- A state without files and records. -/
def emptyLibrary : LibraryState := ⟨noFiles, [], ⟨[], List.nodup_nil⟩⟩

/-- A season of a show, with two episodes. -/
def wantedSeason (season : ℕ) : MediaInfo where
  type := some .tv
  title := some (of "Show")
  tmdbId := .int 5
  beginSeason := some season
  totalEpisodes := 2

/-- The first season of a show that is not in the library is reported missing. -/
theorem absent_season_reported :
    emptyCheck.TruthfulCheck emptyLibrary (wantedSeason 1) .none
      (false, Dict.empty.set (.int 5) [⟨1, [1, 2], 2, 0⟩]) :=
  (truthfulCheck_iff emptyCheck emptyLibrary (wantedSeason 1) Dict.empty .none _ (by decide)
    (by rfl)).mpr (.inl (by decide))

/-- The specials of a show that is not in the library are reported as there. -/
theorem absent_specials_complete :
    emptyCheck.checkExistsMedias emptyLibrary (wantedSeason 0) Dict.empty .none =
        .ok (true, Dict.empty) ∧
      ¬emptyCheck.InLibrary emptyLibrary (wantedSeason 0) 0 1 ∧
      ¬emptyCheck.TruthfulCheck emptyLibrary (wantedSeason 0) .none (true, Dict.empty) := by
  have hout : ¬emptyCheck.InLibrary emptyLibrary (wantedSeason 0) 0 1 := by
    rintro (⟨r, hr, -⟩ | ⟨root, hroot, -⟩)
    · simp [seasonRecords, getTransferInfoByRef, recordsOfRef, emptyLibrary] at hr
    · simp [rootsOf, emptyCheck] at hroot
  refine ⟨by rfl, hout, ?_⟩
  intro htruthful
  exact hout ((htruthful.complete rfl).2 1 (by decide))

end CheckEnv

end WolfNas
