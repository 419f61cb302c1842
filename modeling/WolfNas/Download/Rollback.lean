import WolfNas.Download.Offers

/-!
# Downloads that are taken back

`download_from_season_pack` adds a pack paused, selects the needed files and starts it; where
one of these fails, it deletes the torrent.  By then the callback has put the candidate on the
list of the downloaded ones, and the selected episodes are off the needed season.

## Main definitions

* `DownloadEnv.Undone` — a turn adds a pack, fails on it and deletes the torrent.
* `DownloadEnv.Spares` — what was written before the failure leaves the needed seasons alone.
* `DownloadEnv.listed` — the candidate a turn puts on the list.

## Main results

* `DownloadEnv.turn_cases` — what a turn can do.
* `DownloadEnv.downloaded_turn`, `DownloadEnv.removed_turn_iff`, `DownloadEnv.needs_turn_iff` —
  what a turn does to the list, to the torrents and to the needed seasons.
* `DownloadEnv.rollback_restores_iff` — when every rollback restores what was before.
-/

namespace WolfNas

open Text

namespace Need

variable {season : ℤ} {left : List ℕ} {l : List Need}

/-- The first needed season of the number, if there is one, lists just what is left of it. -/
def Lists (season : ℤ) (left : List ℕ) (l : List Need) : Prop :=
  ∀ x, l.find? (fun x => x.live ∧ x.season = some season) = some x → left ≠ [] ∧ x.episodes = left

theorem updateEpisodes_eq_self_iff : updateEpisodes season left l = l ↔ Lists season left l := by
  induction l with
  | nil => simp [updateEpisodes, Lists]
  | cons x l ih =>
    by_cases hx : x.live ∧ x.season = some season
    · obtain ⟨number, episodes, total, offset, live⟩ := x
      simp only at hx
      by_cases hleft : left = []
      · simp [updateEpisodes, Lists, hx, hleft]
      · simp only [updateEpisodes, Lists, hx, hleft, and_self, if_true, if_false, List.cons.injEq,
          and_true, decide_true, List.find?_cons_of_pos, Option.some.injEq, forall_eq', ne_eq,
          not_false_eq_true, true_and]
        constructor
        · intro h
          exact (congrArg Need.episodes h).symm
        · rintro rfl
          rfl
    · rw [updateEpisodes, if_neg hx]
      simp only [List.cons.injEq, true_and, ih, Lists]
      rw [List.find?_cons_of_neg (by simpa using hx)]

end Need

namespace DownloadEnv

variable (env : DownloadEnv) {st st' : Batch} {t : Turn} {i : ℕ} {need : List ℕ} {id : Text}
  {p : Plan}

/-! ## What a turn can do -/

/-- A turn considers a candidate; it may end with that, or the download fails, or it is added
and settled. -/
theorem turn_cases (st : Batch) (t : Turn) :
    (st.raised = true ∧ env.turn st t = st) ∨
      (st.raised = false ∧ ∃ st', env.consider st t = (st', none) ∧ env.turn st t = st') ∨
      (st.raised = false ∧ ∃ st' p, env.consider st t = (st', some p) ∧
        (env.attempt st' p).id = none ∧ env.turn st t = (env.download st' p).1) ∨
      (st.raised = false ∧ ∃ st' p id, env.consider st t = (st', some p) ∧
        (env.attempt st' p).id = some id ∧
          env.turn st t = env.settle (env.download st' p).1 id p) := by
  rw [turn]
  cases hraised : st.raised with
  | true => exact .inl ⟨rfl, rfl⟩
  | false =>
    rw [if_neg (by simp)]
    rcases hconsider : env.consider st t with ⟨st', plan⟩
    cases plan with
    | none => exact .inr (.inl ⟨rfl, st', rfl, rfl⟩)
    | some p =>
      have hanswer := @id_download env st' p
      rcases hdownload : env.download st' p with ⟨st'', answer⟩
      rw [hdownload] at hanswer
      simp only at hanswer
      cases answer with
      | none => exact .inr (.inr (.inl ⟨rfl, st', p, rfl, hanswer.symm, by simp [hdownload]⟩))
      | some id =>
        exact .inr (.inr (.inr ⟨rfl, st', p, id, rfl, hanswer.symm, by simp [hdownload]⟩))

/-- A turn that takes a candidate adds its download, or leaves what the attempt left. -/
theorem turn_of_plan {st' : Batch} {p : Plan} (hraised : st.raised = false)
    (h : env.consider st t = (st', some p)) : env.turn st t = match (env.attempt st' p).id with
      | none => (env.download st' p).1
      | some id => env.settle (env.download st' p).1 id p := by
  rcases env.turn_cases st t with ⟨hraised', -⟩ | ⟨-, _, h', -⟩ | ⟨-, _, _, h', hid, hturn⟩ |
    ⟨-, _, _, _, h', hid, hturn⟩
  · simp [hraised] at hraised'
  · simp [h] at h'
  · obtain ⟨rfl, rfl⟩ : st' = _ ∧ p = _ := by simpa [h] using h'
    rw [hturn, hid]
  · obtain ⟨rfl, rfl⟩ : st' = _ ∧ p = _ := by simpa [h] using h'
    rw [hturn, hid]

/-- Considering a candidate writes nothing to the shared state of a batch. -/
theorem rest_consider (h : (env.consider st t).1 = st') : st'.needs = st.needs ∧
    st'.downloaded = st.downloaded ∧ st'.removed = st.removed ∧ st'.log = st.log := by
  subst h
  have hframe : ∀ {st'}, st.Framed st' → st'.needs = st.needs ∧
      st'.downloaded = st.downloaded ∧ st'.removed = st.removed ∧ st'.log = st.log := by
    rintro _ ⟨_, _, rfl⟩
    exact ⟨rfl, rfl, rfl, rfl⟩
  cases t with
  | film i => exact hframe env.framed_considerFilm
  | pack i => exact hframe env.framed_considerPack
  | episode i => exact hframe env.framed_considerEpisode
  | unpack i => exact hframe env.framed_considerUnpack
  | openSeasons k => exact ⟨rfl, rfl, rfl, rfl⟩
  | openSeries k => exact ⟨rfl, rfl, rfl, rfl⟩
  | openEpisodes j => exact ⟨rfl, rfl, rfl, rfl⟩
  | openPacks j => exact ⟨rfl, rfl, rfl, rfl⟩

theorem rest_download : (env.download st p).1.needs = st.needs ∧
    (env.download st p).1.removed = st.removed ∧
      (env.download st p).1.downloaded =
        if (env.attempt st p).id ≠ none ∧ st.isIn p.place st.downloaded = false then
          st.downloaded ++ [p.place]
        else st.downloaded := by
  simp only [download]
  cases hid : (env.attempt st p).id with
  | none => simp [Batch.setItem]
  | some id =>
    have hisIn : ({ st with log := st.log ++ [env.attempt st p] } : Batch).isIn p.place
        st.downloaded = st.isIn p.place st.downloaded := rfl
    cases hlisted : st.isIn p.place st.downloaded <;> simp [hisIn, hlisted]

theorem rest_credit : (env.credit st id p).removed = st.removed ∧
    (env.credit st id p).downloaded = st.downloaded := by
  cases p with
  | film i name => exact ⟨rfl, rfl⟩
  | pack k i => exact ⟨rfl, rfl⟩
  | episode k j i need relative => exact ⟨rfl, rfl⟩
  | unpack k j i need relative => exact ⟨rfl, rfl⟩
  | magnet k j i need =>
    simp only [credit]
    split
    · exact ⟨rfl, rfl⟩
    · exact ⟨rfl, rfl⟩
    · split <;> exact ⟨rfl, rfl⟩

theorem rest_settle : (env.settle st id p).downloaded = st.downloaded ∧
    (env.settle st id p).needs = (env.credit st id p).needs ∧
      (env.settle st id p).removed =
        if env.keeps st id p = true ∨ env.removeFails id = true then st.removed
        else st.removed ++ [id] := by
  simp only [settle]
  split_ifs <;> simp [rest_credit]

/-! ## The list of the downloaded candidates -/

/-- The candidate a turn puts on the list: it is downloaded, and no equal one is on it. -/
def listed (st : Batch) (t : Turn) : List ℕ :=
  if st.raised then []
  else match env.consider st t with
    | (_, none) => []
    | (st', some p) =>
      if env.add st.log.length (st'.items p.place) p.paused ≠ none ∧
          st'.isIn p.place st.downloaded = false then [p.place]
      else []

theorem downloaded_turn (st : Batch) (t : Turn) :
    (env.turn st t).downloaded = st.downloaded ++ env.listed st t := by
  rw [listed]
  rcases env.turn_cases st t with ⟨hraised, hturn⟩ | ⟨hraised, st', hconsider, hturn⟩ |
    ⟨hraised, st', p, hconsider, hid, hturn⟩ | ⟨hraised, st', p, id, hconsider, hid, hturn⟩
  · simp [hraised, hturn]
  · have hrest := env.rest_consider (congrArg Prod.fst hconsider)
    simp only at hrest
    simp [hraised, hturn, hconsider, hrest.2.1]
  · have hrest := env.rest_consider (congrArg Prod.fst hconsider)
    simp only at hrest
    have hadd : env.add st.log.length (st'.items p.place) p.paused = none := by
      simpa [attempt, hrest.2.2.2] using hid
    simp [hraised, hturn, hconsider, env.rest_download.2.2, hid, hadd, hrest.2.1]
  · have hrest := env.rest_consider (congrArg Prod.fst hconsider)
    simp only at hrest
    have hadd : env.add st.log.length (st'.items p.place) p.paused = some id := by
      simpa [attempt, hrest.2.2.2] using hid
    simp only [hraised, hturn, hconsider, env.rest_settle.1, env.rest_download.2.2, hid, hadd,
      hrest.2.1]
    cases st'.isIn p.place st.downloaded <;> simp

/-! ## Taking a torrent back -/

/-- The turn adds a pack, fails on it and deletes the torrent. -/
structure Undone (st : Batch) (t : Turn) (i : ℕ) (need : List ℕ) (id : Text) : Prop where
  turn : t = .unpack i
  running : st.raised = false
  need_eq : st.need = some need
  open_need : need ≠ []
  offer : env.UnpackOffer st need i
  added : env.add st.log.length ((env.fetchUrl st i).items i) true = some id
  fails : env.keeps st id (env.unpackPlan st need i) = false
  deleted : env.removeFails id = false

/-- What is written before the failure leaves the needed seasons alone: the files of the magnet
link are not selected, or the needed season lists just what is left of it. -/
def Spares (st : Batch) (id : Text) : Plan → Prop
  | .magnet k j _ need => ∀ found, env.magnetFiles st k j need id = some (some found) →
      found.1 ≠ [] → Need.Lists (st.slot k j).number (need.filter (· ∉ found.2)) (st.needs k)
  | .unpack k j _ need relative =>
    Need.Lists (st.slot k j).number (need.filter (· ∉ relative)) (st.needs k)
  | _ => True

theorem keeps_congr (h : st'.needs = st.needs) : env.keeps st' id p = env.keeps st id p := by
  have hslot : ∀ k j, st'.slot k j = st.slot k j := by simp [Batch.slot, h]
  cases p <;> simp [keeps, magnetFiles, hslot]

theorem paused_unpackPlan : (env.unpackPlan st need i).paused = true := by
  simp only [unpackPlan]
  split <;> rfl

theorem needs_takeEpisodes_iff {k : IdValue} {number : ℤ} {taken : List ℕ} :
    (st.takeEpisodes k number need taken).needs = st.needs ↔
      Need.Lists number (need.filter (· ∉ taken)) (st.needs k) := by
  simp only [Batch.takeEpisodes, Function.update_eq_self_iff]
  exact Need.updateEpisodes_eq_self_iff

theorem needs_credit_unpackPlan (h : st'.needs = st.needs) :
    (env.credit st' id (env.unpackPlan st need i)).needs = st.needs ↔
      env.Spares st id (env.unpackPlan st need i) := by
  have hslot : ∀ k j, st'.slot k j = st.slot k j := by simp [Batch.slot, h]
  have hfiles : ∀ k j need, env.magnetFiles st' k j need id = env.magnetFiles st k j need id := by
    simp [magnetFiles, hslot]
  rw [← h]
  simp only [unpackPlan]
  split
  · simp only [credit, Spares, hfiles]
    cases hfound : env.magnetFiles st st.key st.tv need id with
    | none => simp
    | some answer =>
      cases answer with
      | none => simp
      | some found =>
        by_cases hnil : found.1 = []
        · simp [hnil]
        · simp only [hnil, if_false, Option.some.injEq, forall_eq', ne_eq, not_false_eq_true,
            true_imp_iff, ← hslot, ← h]
          exact needs_takeEpisodes_iff
  · simp only [credit, Spares, ← hslot, ← h]
    exact needs_takeEpisodes_iff

/-- A turn deletes a torrent exactly where it is undone. -/
theorem removed_turn_iff :
    (env.turn st t).removed ≠ st.removed ↔ ∃ i need id, env.Undone st t i need id := by
  rcases env.turn_cases st t with ⟨hraised, hturn⟩ | ⟨hraised, st', hconsider, hturn⟩ |
    ⟨hraised, st', p, hconsider, hid, hturn⟩ | ⟨hraised, st', p, id, hconsider, hid, hturn⟩
  · rw [hturn]
    refine iff_of_false (by simp) ?_
    rintro ⟨i, need, id, h⟩
    simp [h.running] at hraised
  · rw [hturn, (env.rest_consider (congrArg Prod.fst hconsider)).2.2.1]
    refine iff_of_false (by simp) ?_
    rintro ⟨i, need, id, h⟩
    obtain rfl := h.turn
    have hplan := env.considerUnpack_iff.mpr ⟨need, h.need_eq, h.open_need, h.offer, rfl, rfl⟩
    rw [consider, hplan] at hconsider
    simp at hconsider
  · have hrest := env.rest_consider (congrArg Prod.fst hconsider)
    simp only at hrest
    rw [hturn, env.rest_download.2.1, hrest.2.2.1]
    refine iff_of_false (by simp) ?_
    rintro ⟨i, need, id, h⟩
    obtain rfl := h.turn
    have hplan := env.considerUnpack_iff.mpr ⟨need, h.need_eq, h.open_need, h.offer, rfl, rfl⟩
    rw [consider, hplan] at hconsider
    obtain ⟨rfl, rfl⟩ := by simpa using hconsider
    simp [attempt, place_unpackPlan, paused_unpackPlan, hrest.2.2.2, h.added] at hid
  · have hrest := env.rest_consider (congrArg Prod.fst hconsider)
    simp only at hrest
    have hkeeps : env.keeps (env.download st' p).1 id p = env.keeps st id p :=
      env.keeps_congr (env.rest_download.1.trans hrest.1)
    rw [hturn, env.rest_settle.2.2, hkeeps, env.rest_download.2.1, hrest.2.2.1]
    have hgone : (if env.keeps st id p = true ∨ env.removeFails id = true then st.removed
        else st.removed ++ [id]) ≠ st.removed ↔
          env.keeps st id p = false ∧ env.removeFails id = false := by
      split_ifs with h
      · rcases h with h | h <;> simp [h]
      · simpa using h
    rw [hgone]
    constructor
    · rintro ⟨hfails, hdeleted⟩
      cases t with
      | film i =>
        obtain ⟨name, rfl⟩ := env.considerFilm_plan hconsider
        simp [keeps] at hfails
      | pack i =>
        obtain ⟨-, -, rfl⟩ := env.considerPack_iff.mp hconsider
        simp [keeps] at hfails
      | episode i =>
        obtain ⟨_, -, _, -, -, rfl⟩ := env.considerEpisode_iff.mp hconsider
        simp [keeps] at hfails
      | unpack i =>
        obtain ⟨need, hneed, hne, hoffer, rfl, rfl⟩ := env.considerUnpack_iff.mp hconsider
        simp only [attempt, place_unpackPlan, paused_unpackPlan, hrest.2.2.2] at hid
        exact ⟨i, need, id, rfl, hraised, hneed, hne, hoffer, hid, hfails, hdeleted⟩
      | openSeasons k => simp [consider] at hconsider
      | openSeries k => simp [consider] at hconsider
      | openEpisodes j => simp [consider] at hconsider
      | openPacks j => simp [consider] at hconsider
    · rintro ⟨i, need, id', h⟩
      obtain rfl := h.turn
      have hplan := env.considerUnpack_iff.mpr ⟨need, h.need_eq, h.open_need, h.offer, rfl, rfl⟩
      rw [consider, hplan] at hconsider
      obtain ⟨rfl, rfl⟩ := by simpa using hconsider
      simp only [attempt, place_unpackPlan, paused_unpackPlan, hrest.2.2.2, h.added,
        Option.some.injEq] at hid
      subst hid
      exact ⟨h.fails, h.deleted⟩

/-- A turn that is undone leaves the needed seasons alone exactly where nothing was written to
them before the failure. -/
theorem needs_turn_iff (h : env.Undone st t i need id) :
    (env.turn st t).needs = st.needs ↔ env.Spares st id (env.unpackPlan st need i) := by
  obtain rfl := h.turn
  have hplan : env.consider st (.unpack i) = (env.fetchUrl st i, some (env.unpackPlan st need i)) :=
    env.considerUnpack_iff.mpr ⟨need, h.need_eq, h.open_need, h.offer, rfl, rfl⟩
  have hrest := env.rest_consider (congrArg Prod.fst hplan)
  simp only at hrest
  have hid : (env.attempt (env.fetchUrl st i) (env.unpackPlan st need i)).id = some id := by
    simpa [attempt, place_unpackPlan, paused_unpackPlan, hrest.2.2.2] using h.added
  have hturn : env.turn st (.unpack i) =
      env.settle (env.download (env.fetchUrl st i) (env.unpackPlan st need i)).1 id
        (env.unpackPlan st need i) := by
    have hanswer := @id_download env (env.fetchUrl st i) (env.unpackPlan st need i)
    rw [hid] at hanswer
    rcases hdownload : env.download (env.fetchUrl st i) (env.unpackPlan st need i) with
      ⟨st'', answer⟩
    rw [hdownload] at hanswer
    obtain rfl : answer = some id := hanswer
    simp [turn, h.running, hplan, hdownload]
  rw [hturn, env.rest_settle.2.1]
  exact env.needs_credit_unpackPlan (env.rest_download.1.trans hrest.1)

/-! ## The batch -/

/-- Every rollback of a batch leaves the needed seasons as they were, and its candidate is not on
the list the batch answers with. -/
def RollbackRestores (needs : Needs) (items : List Candidate) : Prop :=
  Run.Along env.turn (fun st t => (env.turn st t).removed ≠ st.removed →
    (env.turn st t).needs = st.needs ∧
      ∀ i, t.place = some i → i ∉ (env.batchDownload needs items).downloaded)
    (Batch.start needs items) (env.batchTurns needs items)

theorem mem_downloaded_iff {needs : Needs} {items : List Candidate} :
    i ∈ (env.batchDownload needs items).downloaded ↔
      Run.Sometime env.turn (fun st t => i ∈ env.listed st t) (Batch.start needs items)
        (env.batchTurns needs items) := by
  have hlist := @Run.exists_log_iff _ _ env.turn _ Batch.downloaded env.listed (· = i)
    env.downloaded_turn (env.batchTurns needs items) (Batch.start needs items)
  have hstart : ¬∃ j ∈ (Batch.start needs items).downloaded, j = i := by simp [Batch.start]
  rw [or_iff_right hstart] at hlist
  simp only [exists_eq_right] at hlist
  exact hlist

/-- **When every rollback restores what was before**: at every turn that adds a pack, fails on
it and deletes the torrent, nothing has been written to the needed seasons; and whenever the
candidate of such a turn is downloaded, an equal one is already on the list. -/
theorem rollback_restores_iff (needs : Needs) (items : List Candidate) :
    env.RollbackRestores needs items ↔
      Run.Along env.turn (fun st t => ∀ i need id, env.Undone st t i need id →
          env.Spares st id (env.unpackPlan st need i))
        (Batch.start needs items) (env.batchTurns needs items) ∧
      ∀ i, Run.Sometime env.turn (fun st t => ∃ need id, env.Undone st t i need id)
          (Batch.start needs items) (env.batchTurns needs items) →
        Run.Along env.turn (fun st t => i ∉ env.listed st t)
          (Batch.start needs items) (env.batchTurns needs items) := by
  have hlist : ∀ i, i ∉ (env.batchDownload needs items).downloaded ↔
      Run.Along env.turn (fun st t => i ∉ env.listed st t) (Batch.start needs items)
        (env.batchTurns needs items) := by
    intro i
    rw [mem_downloaded_iff, Run.not_sometime_iff]
  simp only [← hlist]
  rw [← Run.along_forall_imp_iff, ← Run.along_and, RollbackRestores]
  refine Run.along_iff fun st t => ?_
  rw [removed_turn_iff]
  constructor
  · intro h
    refine ⟨?_, ?_⟩
    · intro i need id hundone
      exact (env.needs_turn_iff hundone).mp (h ⟨i, need, id, hundone⟩).1
    · rintro i ⟨need, id, hundone⟩
      exact (h ⟨i, need, id, hundone⟩).2 i (by simp [hundone.turn, Turn.place])
  · rintro ⟨hspares, hlisted⟩ ⟨i, need, id, hundone⟩
    refine ⟨(env.needs_turn_iff hundone).mpr (hspares i need id hundone), ?_⟩
    intro i' hi'
    simp only [hundone.turn, Turn.place, Option.some.injEq] at hi'
    subst hi'
    exact hlisted i ⟨need, id, hundone⟩

/-- A downloader that cannot select files. -/
def unselecting : DownloadEnv where
  bySeeders := false
  downloadUrl _ := some none
  torrentEpisodes _ := some [2, 3, 4]
  add _ _ _ := some (of "1")
  tidEpisodes _ := some []
  setFilesFails _ := true
  startFails _ := false
  removeFails _ := false

/-- A season of which two episodes are missing. -/
def openSeason : Needs := Dict.empty.set (.text (of "tmdb:5")) [⟨1, [2, 3], 4, 0⟩]

/-- A pack of three episodes of it. -/
def partialPack : Candidate where
  media :=
    { type := some .tv, tmdbId := .int 5, beginSeason := some 1
      enclosure := some (of "http://pt.example/1") }

/-- The torrent of the pack is deleted, the episodes are off the needed season, and the pack is
on the list. -/
theorem deleted_pack_listed : ¬unselecting.RollbackRestores openSeason [partialPack] ∧
    (unselecting.batchDownload openSeason [partialPack]).removed = [of "1"] ∧
      (unselecting.batchDownload openSeason [partialPack]).downloaded = [0] ∧
        ((unselecting.batchDownload openSeason [partialPack]).needs
          (.text (of "tmdb:5"))).map Need.live = [false] := by
  have hlisted : Run.Sometime unselecting.turn
      (fun st t => (unselecting.turn st t).removed ≠ st.removed ∧ t.place = some 0 ∧
        0 ∈ (unselecting.batchDownload openSeason [partialPack]).downloaded)
      (Batch.start openSeason [partialPack]) (unselecting.batchTurns openSeason [partialPack]) := by
    decide +kernel
  refine ⟨?_, by decide +kernel, by decide +kernel, by decide +kernel⟩
  intro h
  refine Run.not_sometime_iff.mpr ?_ hlisted
  refine Run.Along.imp ?_ h
  rintro st t hrestores ⟨hremoved, hplace, hmem⟩
  exact (hrestores hremoved).2 0 hplace hmem

end DownloadEnv

end WolfNas
