import Mathlib.Data.List.GetD
import WolfNas.Download.Rollback

/-!
# Needed episodes are conserved

The season packs and the episode strategies work on one table of needed seasons.  A pack takes whole
seasons off it, the other loops episodes of the season they are about, which they look for by its
number.  An entry without a season is never found so, the first of several entries of one season is
found for all of them, and a download that is taken back has already had its episodes taken off.
Where none of this happens, each needed episode is credited to one download, or is still needed.

## Main definitions

* `Need.Wants`, `Need.Open` — the episodes that needed seasons stand for.
* `Batch.opened`, `strategyTurns` — a run of the strategies on any table.
* `Attempt.Credits` — the episodes that a download is credited with.
* `Batch.Conserved` — the credits are disjoint, and what is not credited is still needed.
* `DownloadEnv.Sound` — what a download brings is taken off its own entry, which alone has it.
* `DownloadEnv.Packing`, `DownloadEnv.Taking` — what the loops keep.

## Main results

* `Need.open_dropSeasons`, `Need.open_updateEpisodes` — what the loops leave of a list of entries.
* `DownloadEnv.packing_turn`, `DownloadEnv.taking_turn` — what one turn preserves.
* `DownloadEnv.conserved_of_sound` — for every run.
-/

namespace WolfNas

open Text

/-! ## Entries and their episodes -/

namespace Need

/-- The episodes that an entry stands for; one of unknown length stands for all. -/
def Wants (x : Need) (e : ℕ) : Prop :=
  if x.episodes ≠ [] then e ∈ x.episodes else x.totalEpisodes = 0 ∨ 1 ≤ e ∧ e ≤ x.totalEpisodes

instance (x : Need) (e : ℕ) : Decidable (x.Wants e) := by unfold Wants; infer_instance

/-- An episode of a season is needed. -/
def Open (l : List Need) (n : ℤ) (e : ℕ) : Prop :=
  ∃ x ∈ l, x.live = true ∧ x.number = n ∧ x.Wants e

instance (l : List Need) (n : ℤ) (e : ℕ) : Decidable (Open l n e) := by
  unfold Open
  infer_instance

/-- The entry at a place. -/
def entryAt (l : List Need) (j : ℕ) : Need := l.getD j ⟨none, [], 0, 0, false⟩

/-- The entry at a place is the one that is found for its season, and no other needs the episodes
that are taken. -/
def Sole (l : List Need) (j : ℕ) (taken : List ℕ) : Prop :=
  (l.findIdx? fun x => x.live ∧ x.season = some (entryAt l j).number) = some j ∧
    ∀ i < l.length, i ≠ j → (entryAt l i).live = true →
      (entryAt l i).number = (entryAt l j).number → ∀ e ∈ taken, ¬(entryAt l i).Wants e

instance (l : List Need) (j : ℕ) (taken : List ℕ) : Decidable (Sole l j taken) := by
  unfold Sole
  infer_instance

variable {l before after : List Need} {x : Need} {n : ℤ} {e j : ℕ} {need taken left : List ℕ}
  {seasons : List ℕ}

theorem open_append : Open (before ++ after) n e ↔ Open before n e ∨ Open after n e := by
  simp only [Open, List.mem_append, or_and_right, exists_or]

theorem open_cons : Open (x :: l) n e ↔
    (x.live = true ∧ x.number = n ∧ x.Wants e) ∨ Open l n e := by
  simp only [Open, List.mem_cons, or_and_right, exists_or, exists_eq_left]

theorem inPack_iff (hzero : 0 ∉ seasons) :
    x.inPack seasons = true ↔ ∃ s ∈ seasons, (s : ℤ) = x.number := by
  rw [inPack, decide_eq_true_iff]
  refine exists_congr fun s => and_congr_right fun hs => ?_
  have hne : s ≠ 0 := by
    rintro rfl
    exact hzero hs
  rw [number]
  cases hseason : x.season with
  | none =>
    simp only [reduceCtorEq, Option.getD_none, and_true, false_or, if_true]
    omega
  | some m =>
    simp only [Option.some.injEq, Option.getD_some]
    split_ifs with hm
    · subst hm
      omega
    · omega

/-- **A pack takes its seasons off.** -/
theorem open_dropSeasons (hzero : 0 ∉ seasons) :
    Open (dropSeasons seasons l) n e ↔ Open l n e ∧ ¬∃ s ∈ seasons, (s : ℤ) = n := by
  simp only [Open, dropSeasons, List.mem_map, exists_exists_and_eq_and]
  constructor
  · rintro ⟨x, hx, hlive, hnumber, hwants⟩
    split_ifs at hlive hnumber hwants with hpack
    refine ⟨⟨x, hx, hlive, hnumber, hwants⟩, ?_⟩
    rw [← hnumber]
    exact fun h => hpack ((inPack_iff hzero).mpr h)
  · rintro ⟨⟨x, hx, hlive, rfl, hwants⟩, hnone⟩
    refine ⟨x, hx, ?_⟩
    rw [if_neg fun h => hnone ((inPack_iff hzero).mp h)]
    exact ⟨hlive, rfl, hwants⟩

theorem updateEpisodes_append
    (h : ∀ y ∈ before, ¬(y.live = true ∧ y.season = some n)) :
    updateEpisodes n left (before ++ after) = before ++ updateEpisodes n left after := by
  induction before with
  | nil => rfl
  | cons y before ih =>
    rw [List.cons_append, updateEpisodes, if_neg (h y List.mem_cons_self),
      ih fun z hz => h z (List.mem_cons_of_mem y hz)]
    rfl

/-- The entry that is found, with those before and behind it. -/
theorem Sole.split (h : Sole l j taken) : ∃ before after, l = before ++ entryAt l j :: after ∧
    before.length = j ∧ (entryAt l j).live = true ∧
      (entryAt l j).season = some (entryAt l j).number ∧
      (∀ y ∈ before, ¬(y.live = true ∧ y.season = some (entryAt l j).number)) ∧
        ∀ y ∈ before ++ after, y.live = true → y.number = (entryAt l j).number →
          ∀ e ∈ taken, ¬y.Wants e := by
  obtain ⟨hfound, honly⟩ := h
  obtain ⟨hj, hsat, hfirst⟩ := List.findIdx?_eq_some_iff_getElem.mp hfound
  have hat : ∀ {i} (hi : i < l.length), entryAt l i = l[i] := fun hi => List.getD_eq_getElem l _ hi
  rw [decide_eq_true_iff, ← hat hj] at hsat
  refine ⟨l.take j, l.drop (j + 1), ?_, ?_, hsat.1, hsat.2, ?_, ?_⟩
  · rw [hat hj, List.cons_getElem_drop_succ, List.take_append_drop]
  · rw [List.length_take]
    omega
  · intro y hy hlive
    obtain ⟨i, hi, rfl⟩ := List.mem_iff_getElem.mp hy
    have hij : i < j := by
      rw [List.length_take] at hi
      omega
    rw [List.getElem_take] at hlive
    exact hfirst i hij (decide_eq_true hlive)
  · intro y hy hlive hnumber
    rcases List.mem_append.mp hy with hy | hy
    · obtain ⟨i, hi, rfl⟩ := List.mem_iff_getElem.mp hy
      rw [List.length_take] at hi
      rw [List.getElem_take, ← hat (by omega)] at hlive hnumber ⊢
      exact honly i (by omega) (by omega) hlive hnumber
    · obtain ⟨i, hi, rfl⟩ := List.mem_iff_getElem.mp hy
      rw [List.length_drop] at hi
      rw [List.getElem_drop, ← hat (by omega)] at hlive hnumber ⊢
      exact honly (j + 1 + i) (by omega) (by omega) hlive hnumber

/-- The list with the entry that is found changed. -/
theorem Sole.update (h : Sole l j taken) : ∃ before after, l = before ++ entryAt l j :: after ∧
    before.length = j ∧ (entryAt l j).live = true ∧
      updateEpisodes (entryAt l j).number left l = before ++
        (if left = [] then { entryAt l j with live := false }
          else { entryAt l j with episodes := left }) :: after ∧
        ∀ y ∈ before ++ after, y.live = true → y.number = (entryAt l j).number →
          ∀ e ∈ taken, ¬y.Wants e := by
  obtain ⟨before, after, hl, hlength, hlive, hseason, hfirst, honly⟩ := h.split
  generalize entryAt l j = x at *
  refine ⟨before, after, hl, hlength, hlive, ?_, honly⟩
  rw [hl, updateEpisodes_append hfirst, updateEpisodes, if_pos ⟨hlive, hseason⟩]

/-- What is left at the place of the entry. -/
theorem entryAt_updateEpisodes (h : Sole l j taken) :
    entryAt (updateEpisodes (entryAt l j).number left l) j =
      if left = [] then { entryAt l j with live := false }
      else { entryAt l j with episodes := left } := by
  obtain ⟨before, after, -, hlength, -, hupdate, -⟩ := @Sole.update l j taken left h
  rw [entryAt, hupdate, ← hlength, List.getD_append_right _ _ _ _ le_rfl, Nat.sub_self]
  rfl

theorem Sole.live (h : Sole l j taken) : (entryAt l j).live = true := by
  obtain ⟨_, _, -, -, hlive, -⟩ := h.split
  exact hlive

theorem Sole.mem (h : Sole l j taken) : entryAt l j ∈ l := by
  obtain ⟨before, after, hl, -⟩ := h.split
  have hmem : entryAt l j ∈ before ++ entryAt l j :: after :=
    List.mem_append_right before List.mem_cons_self
  rwa [← hl] at hmem

/-- The entry stands for what is left, as long as that is something. -/
theorem wants_updateEpisodes (h : Sole l j taken)
    (hlive : (entryAt (updateEpisodes (entryAt l j).number left l) j).live = true) :
    (entryAt (updateEpisodes (entryAt l j).number left l) j).Wants e ↔ e ∈ left := by
  rw [entryAt_updateEpisodes h] at hlive ⊢
  by_cases hleft : left = []
  · rw [if_pos hleft] at hlive
    exact absurd hlive Bool.false_ne_true
  · rw [if_neg hleft, Wants, if_pos hleft]

/-- **Episodes are taken off the entry that is found**, and off the needed ones where no other
entry has them. -/
theorem open_updateEpisodes (h : Sole l j taken)
    (hneed : ∀ e, (entryAt l j).Wants e ↔ e ∈ need) :
    Open (updateEpisodes (entryAt l j).number (need.filter (· ∉ taken)) l) n e ↔
      Open l n e ∧ ¬(n = (entryAt l j).number ∧ e ∈ taken) := by
  obtain ⟨before, after, hl, -, hlive, hupdate, honly⟩ :=
    @Sole.update l j taken (need.filter (· ∉ taken)) h
  set x := entryAt l j
  have hentry : Open [if need.filter (· ∉ taken) = [] then { x with live := false }
      else { x with episodes := need.filter (· ∉ taken) }] n e ↔
        x.number = n ∧ e ∈ need ∧ e ∉ taken := by
    have hmem : e ∈ need.filter (· ∉ taken) ↔ e ∈ need ∧ e ∉ taken := by
      simp only [List.mem_filter, decide_eq_true_eq]
    rw [open_cons, ← hmem]
    split_ifs with hnil
    · have hnone : e ∉ need.filter (· ∉ taken) := by
        rw [hnil]
        exact List.not_mem_nil
      simp only [Open, false_and, List.not_mem_nil, exists_false, or_self, hnone, and_false]
    · simp only [Open, List.not_mem_nil, false_and, exists_false, or_false, hlive, true_and, Wants,
        if_pos hnil]
      rfl
  have hrest : ∀ {e}, e ∈ taken → ¬(Open before x.number e ∨ Open after x.number e) := by
    intro e he hopen
    rw [← open_append] at hopen
    obtain ⟨y, hy, hylive, hynumber, hywants⟩ := hopen
    exact honly y hy hylive hynumber e he hywants
  have hwhole : Open l n e ↔ Open before n e ∨ x.number = n ∧ e ∈ need ∨ Open after n e := by
    rw [hl, open_append, open_cons, hneed]
    simp only [hlive, true_and]
  rw [hupdate, ← List.singleton_append, open_append, open_append, hentry, hwhole]
  by_cases hn : n = x.number
  · subst hn
    by_cases he : e ∈ taken
    · have hnone := not_or.mp (hrest he)
      simp [he, hnone.1, hnone.2]
    · simp [he]
  · simp [hn, Ne.symm hn]

end Need

/-! ## Runs and their credits -/

/-- The state before the strategies, for any table of needed seasons. -/
def Batch.opened (table : IdValue → List Need) (items : List Candidate) : Batch :=
  let needs := fun k => (table k).map fun x => { x with live := true }
  { items := fun i => items.getD i { media := {} }
    needs := needs
    whole := fun k =>
      let whole := Need.wholeSeasons (needs k)
      if whole = [] then none else some whole }

/-- A turn of the loop over the season packs. -/
def Turn.ofPacks : Turn → Bool
  | .openSeasons _ | .pack _ => true
  | _ => false

/-- A turn of the loops over the episodes that are needed. -/
def Turn.ofEpisodes : Turn → Bool
  | .openSeries _ | .openEpisodes _ | .episode _ | .openPacks _ | .unpack _ => true
  | _ => false

/-- The turns of the season packs and of the episode strategies. -/
def strategyTurns (keys : List IdValue) (slots : IdValue → ℕ) (list : List ℕ) : List Turn :=
  (keys.flatMap fun k => .openSeasons k :: list.map .pack) ++
    (DownloadEnv.seasonTurns keys slots list .openEpisodes .episode ++
      DownloadEnv.seasonTurns keys slots list .openPacks .unpack)

namespace Plan

/-- The series that a download is for. -/
def series : Plan → Option IdValue
  | film _ _ => none
  | pack k _ | episode k _ _ _ _ | magnet k _ _ _ | unpack k _ _ _ _ => some k

/-- It is a pack of whole seasons. -/
def isPack : Plan → Bool
  | pack _ _ => true
  | _ => false

/-- The entry that the loop is about, with the episodes that it needs. -/
def about : Plan → Option (IdValue × ℕ × List ℕ)
  | film _ _ | pack _ _ => none
  | episode k j _ need _ | magnet k j _ need | unpack k j _ need _ => some (k, j, need)

end Plan

/-- The episodes that a download is credited with, where it stays: those it brings of the season,
and a pack all of its seasons. -/
def Attempt.Credits (a : Attempt) (k : IdValue) (n : ℤ) (e : ℕ) : Prop :=
  a.kept = true ∧ a.plan.series = some k ∧ (∃ s ∈ a.item.media.getSeasonList, (s : ℤ) = n) ∧
    (a.plan.isPack = true ∨ e ∈ a.brings)

instance (a : Attempt) (k : IdValue) (n : ℤ) (e : ℕ) : Decidable (a.Credits k n e) := by
  unfold Attempt.Credits
  infer_instance

/-- `need_tvs` has an episode of a season. -/
def Batch.Needed (st : Batch) (k : IdValue) (n : ℤ) (e : ℕ) : Prop := Need.Open (st.needs k) n e

instance (st : Batch) (k : IdValue) (n : ℤ) (e : ℕ) : Decidable (st.Needed k n e) :=
  inferInstanceAs (Decidable (Need.Open (st.needs k) n e))

/-- **The needed episodes are conserved**: those credited to two downloads are disjoint, and those
that are still needed are the ones of the start that are credited to none. -/
structure Batch.Conserved (start st : Batch) : Prop where
  disjoint : st.log.Pairwise fun a b => ∀ k n e, start.Needed k n e →
    ¬(a.Credits k n e ∧ b.Credits k n e)
  left : ∀ k n e, st.Needed k n e ↔ start.Needed k n e ∧ ∀ a ∈ st.log, ¬a.Credits k n e

/-- **A call of `download` is added to a run**: where it is credited with needed episodes only, and
these are needed no longer, the needed episodes stay conserved. -/
theorem Batch.Conserved.snoc {start st st' : Batch} {a : Attempt} (h : start.Conserved st)
    (hlog : st'.log = st.log ++ [a])
    (hnew : ∀ k n e, start.Needed k n e → a.Credits k n e → st.Needed k n e)
    (hleft : ∀ k n e, st'.Needed k n e ↔ st.Needed k n e ∧ ¬a.Credits k n e) :
    start.Conserved st' where
  disjoint := by
    rw [hlog, List.pairwise_append]
    refine ⟨h.disjoint, List.pairwise_singleton _ _, ?_⟩
    intro b hb c hc k n e hneeded hboth
    obtain rfl := List.mem_singleton.mp hc
    exact ((h.left k n e).mp (hnew k n e hneeded hboth.2)).2 b hb hboth.1
  left := by
    intro k n e
    rw [hleft, h.left, hlog, and_assoc]
    simp only [List.mem_append, List.mem_singleton, or_imp, forall_and, forall_eq]

/-- A turn without a call, and one whose call comes to nothing. -/
theorem Batch.Conserved.congr {start st st' : Batch} (h : start.Conserved st)
    (hlog : st'.log = st.log) (hneeds : st'.needs = st.needs) : start.Conserved st' where
  disjoint := hlog ▸ h.disjoint
  left k n e := by
    rw [Needed, hneeds, hlog]
    exact h.left k n e

theorem Batch.Conserved.of_not_kept {start st st' : Batch} {a : Attempt} (h : start.Conserved st)
    (hlog : st'.log = st.log ++ [a]) (ha : ∀ k n e, ¬a.Credits k n e)
    (hneeds : st'.needs = st.needs) : start.Conserved st' := by
  refine h.snoc hlog ?_ ?_
  · intro k n e _ hcredits
    exact absurd hcredits (ha k n e)
  · intro k n e
    rw [Needed, hneeds, and_iff_left (ha k n e)]
    rfl

namespace DownloadEnv

variable (env : DownloadEnv)

/-- A download takes episodes off an entry. -/
def taking (st : Batch) (id : Text) : Plan → Bool
  | .film _ _ | .pack _ _ => false
  | .episode _ _ _ _ _ | .unpack _ _ _ _ _ => true
  | .magnet k j _ need => match env.magnetFiles st k j need id with
    | some (some found) => found.1 ≠ []
    | _ => false

/-- **What a download brings is taken off its own entry**, no other entry of its season needs any of
it, and the download stays. -/
def Sound (st : Batch) (t : Turn) : Prop :=
  match env.consider st t with
  | (_, none) => True
  | (st', some p) => match (env.attempt st' p).id with
    | none => True
    | some id => st.raised = false → env.taking st' id p = true →
      env.keeps st' id p = true ∧ Need.Sole (st.needs st.key) st.tv (env.brought st' id p)

instance (st : Batch) (t : Turn) : Decidable (env.Sound st t) := by
  unfold Sound
  split
  · infer_instance
  · split <;> infer_instance

variable {env} {start st st' : Batch} {t : Turn} {p : Plan} {id : Text} {k : IdValue} {j : ℕ}
  {need : List ℕ} {n : ℤ} {e : ℕ}

/-! ## One call of `download` -/

theorem attempt_of_id (h : (env.attempt st p).id = some id) :
    (env.attempt st p).kept = env.keeps st id p ∧
      (env.attempt st p).brings = env.brought st id p := by
  have hadd : env.add st.log.length (st.items p.place) p.paused = some id := h
  simp only [attempt, hadd, Option.any_some, Option.map_some, Option.getD_some, and_self]

theorem not_kept_of_id (h : (env.attempt st p).id = none) : (env.attempt st p).kept = false := by
  have hadd : env.add st.log.length (st.items p.place) p.paused = none := h
  simp only [attempt, hadd, Option.any_none]

/-- A download that is added changes nothing but the lists. -/
theorem download_of_id (h : (env.attempt st p).id = some id) : ∃ downloaded,
    (env.download st p).1 =
      { st with log := st.log ++ [env.attempt st p], downloaded := downloaded } := by
  simp only [download, h]
  exact ⟨_, rfl⟩

/-! ## The packs of whole seasons -/

/-- **Between the season packs**: nothing is needed of a season that a pack has brought, which is
none of the whole seasons that are left. -/
structure Packing (start st : Batch) : Prop where
  conserved : start.Conserved st
  zero : ∀ k whole, st.whole k = some whole → (0 : ℤ) ∉ whole
  fresh : ∀ a ∈ st.log, ∀ k n e, a.Credits k n e → ∀ whole, st.whole k = some whole → n ∉ whole
  idle : st.need = none

theorem Packing.of_opened (table : IdValue → List Need) (items : List Candidate) :
    Packing (Batch.opened table items) (Batch.opened table items) where
  conserved :=
    { disjoint := List.Pairwise.nil
      left := by simp [Batch.opened] }
  zero := by
    intro k whole hwhole hzero
    simp only [Batch.opened] at hwhole
    split_ifs at hwhole
    obtain rfl := Option.some.inj hwhole
    obtain ⟨x, -, hx⟩ := List.mem_map.mp hzero
    exact x.number_ne_zero hx
  fresh := by simp [Batch.opened]
  idle := rfl

/-- A turn that changes none of it. -/
theorem Packing.congr (h : Packing start st) (hlog : st'.log = st.log)
    (hneeds : st'.needs = st.needs) (hwhole : st'.whole = st.whole) (hneed : st'.need = none) :
    Packing start st' where
  conserved := h.conserved.congr hlog hneeds
  zero := hwhole ▸ h.zero
  fresh := by
    rw [hlog, hwhole]
    exact h.fresh
  idle := hneed

/-- The episodes that a pack is credited with: all of its seasons. -/
theorem credits_pack_iff {i : ℕ} (h : (env.attempt st (.pack k i)).id = some id) {k' : IdValue} :
    (env.attempt st (.pack k i)).Credits k' n e ↔
      k = k' ∧ ∃ s ∈ (st.items i).media.getSeasonList, (s : ℤ) = n := by
  have hkept : (env.attempt st (.pack k i)).kept = true := (attempt_of_id h).1
  simp only [Attempt.Credits, hkept, true_and]
  simp only [attempt, Plan.series, Option.some.injEq, Plan.place, Plan.isPack, true_or, and_true]

/-- What follows a pack that is added. -/
theorem settle_pack {i : ℕ} (h : (env.attempt st (.pack k i)).id = some id) : ∃ downloaded,
    env.settle (env.download st (.pack k i)).1 id (.pack k i) =
      { st with
        log := st.log ++ [env.attempt st (.pack k i)]
        downloaded := downloaded
        whole := Function.update st.whole k ((st.whole k).map fun whole =>
          whole.filter fun s => s ∉ (st.items i).media.getSeasonList.map Nat.cast)
        needs := Function.update st.needs k
          (Need.dropSeasons (st.items i).media.getSeasonList (st.needs k)) } := by
  obtain ⟨downloaded, hdownload⟩ := download_of_id h
  rw [hdownload]
  exact ⟨downloaded, rfl⟩

/-- **A pack is added**, all of whose seasons are needed whole. -/
theorem Packing.pack (h : Packing start st) {i : ℕ} {whole : List ℤ}
    (hwhole : st.whole k = some whole)
    (hseasons : ∀ s ∈ (st.items i).media.getSeasonList, (s : ℤ) ∈ whole)
    (hid : (env.attempt st (.pack k i)).id = some id) :
    Packing start (env.settle (env.download st (.pack k i)).1 id (.pack k i)) := by
  obtain ⟨downloaded, hsettle⟩ := settle_pack hid
  have hzero : 0 ∉ (st.items i).media.getSeasonList := by
    intro hmem
    exact h.zero k whole hwhole (by simpa using hseasons 0 hmem)
  have hfresh : ∀ b ∈ st.log, ∀ k' n e, (env.attempt st (.pack k i)).Credits k' n e →
      ¬b.Credits k' n e := by
    intro b hb k' n e hcredits hb'
    obtain ⟨rfl, s, hs, rfl⟩ := (credits_pack_iff hid).mp hcredits
    exact h.fresh b hb k s e hb' whole hwhole (hseasons s hs)
  have hneeds : ∀ k' n e,
      (env.settle (env.download st (.pack k i)).1 id (.pack k i)).Needed k' n e ↔
        st.Needed k' n e ∧ ¬(env.attempt st (.pack k i)).Credits k' n e := by
    intro k' n e
    rw [hsettle, credits_pack_iff hid, Batch.Needed, Batch.Needed]
    by_cases hk : k = k'
    · subst hk
      simp only [Function.update_self, Need.open_dropSeasons hzero, true_and]
    · simp only [Function.update_of_ne (Ne.symm hk), hk, false_and, not_false_eq_true, and_true]
  refine ⟨h.conserved.snoc ?_ ?_ hneeds, ?_, ?_, ?_⟩
  · rw [hsettle]
  · intro k' n e hneeded hcredits
    exact (h.conserved.left k' n e).mpr ⟨hneeded, fun b hb hb' => hfresh b hb k' n e hcredits hb'⟩
  · intro k' whole' hwhole'
    rw [hsettle] at hwhole'
    by_cases hk : k = k'
    · subst hk
      simp only [Function.update_self, hwhole, Option.map_some, Option.some.injEq] at hwhole'
      subst hwhole'
      exact fun hmem => h.zero k whole hwhole (List.mem_of_mem_filter hmem)
    · simp only [Function.update_of_ne (Ne.symm hk)] at hwhole'
      exact h.zero k' whole' hwhole'
  · intro b hb k' n e hcredits whole' hwhole'
    rw [hsettle] at hwhole' hb
    by_cases hk : k = k'
    · subst hk
      simp only [Function.update_self, hwhole, Option.map_some, Option.some.injEq] at hwhole'
      subst hwhole'
      intro hmem
      rcases List.mem_append.mp hb with hb | hb
      · exact h.fresh b hb k n e hcredits whole hwhole (List.mem_of_mem_filter hmem)
      · obtain rfl := List.mem_singleton.mp hb
        obtain ⟨-, s, hs, rfl⟩ := (credits_pack_iff hid).mp hcredits
        have hnot := List.of_mem_filter hmem
        simp only [decide_eq_true_eq] at hnot
        exact hnot (List.mem_map_of_mem hs)
    · simp only [Function.update_of_ne (Ne.symm hk)] at hwhole'
      rcases List.mem_append.mp hb with hb | hb
      · exact h.fresh b hb k' n e hcredits whole' hwhole'
      · obtain rfl := List.mem_singleton.mp hb
        exact absurd ((credits_pack_iff hid).mp hcredits).1 hk
  · rw [hsettle]
    exact h.idle

/-- A download that fails. -/
theorem Packing.fail (h : Packing start st) (hid : (env.attempt st p).id = none) :
    Packing start (env.download st p).1 := by
  have hkept := not_kept_of_id hid
  have hnone : ∀ k n e, ¬(env.attempt st p).Credits k n e := by
    intro k n e hcredits
    exact Bool.false_ne_true (hkept.symm.trans hcredits.1)
  have hdownload : (env.download st p).1 = { st with log := st.log ++ [env.attempt st p] }.setItem
      p.place { st.items p.place with failed := true } := by
    simp only [download, hid]
  rw [hdownload]
  refine ⟨h.conserved.of_not_kept rfl hnone rfl, h.zero, ?_, h.idle⟩
  intro b hb k n e hcredits
  rcases List.mem_append.mp hb with hb | hb
  · exact h.fresh b hb k n e hcredits
  · obtain rfl := List.mem_singleton.mp hb
    exact absurd hcredits (hnone k n e)

/-- **A turn of the loop over the season packs.** -/
theorem packing_turn (h : Packing start st) (ht : t.ofPacks = true) :
    Packing start (env.turn st t) := by
  have hframed : ∀ {st'}, st.Framed st' → Packing start st' := by
    rintro _ ⟨_, _, rfl⟩
    exact h.congr rfl rfl rfl h.idle
  rcases env.turn_cases st t with ⟨-, hturn⟩ | ⟨-, st', hconsider, hturn⟩ |
    ⟨-, st', p, hconsider, hid, hturn⟩ | ⟨-, st', p, id, hconsider, hid, hturn⟩
  · rwa [hturn]
  · rw [hturn]
    cases t with
    | openSeasons k =>
      obtain rfl : { st with key := k, need := none } = st' := congrArg Prod.fst hconsider
      exact h.congr rfl rfl rfl rfl
    | pack i =>
      obtain rfl : (env.considerPack st i).1 = st' := congrArg Prod.fst hconsider
      exact hframed env.framed_considerPack
    | _ => simp [Turn.ofPacks] at ht
  · rw [hturn]
    cases t with
    | openSeasons k => simp [consider] at hconsider
    | pack i =>
      obtain ⟨-, rfl, rfl⟩ := env.considerPack_iff.mp hconsider
      exact (hframed env.framed_fetchUrl).fail hid
    | _ => simp [Turn.ofPacks] at ht
  · rw [hturn]
    cases t with
    | openSeasons k => simp [consider] at hconsider
    | pack i =>
      obtain ⟨hoffer, rfl, rfl⟩ := env.considerPack_iff.mp hconsider
      obtain ⟨whole, hwhole, hseasons⟩ := hoffer.seasons
      have hwhole' : (env.fetchUrl st i).whole st.key = some whole := by
        obtain ⟨_, _, hfetch⟩ := @framed_fetchUrl env st i
        rw [hfetch]
        exact hwhole
      rw [← env.seasons_fetchUrl] at hseasons
      exact (hframed env.framed_fetchUrl).pack hwhole' hseasons hid
    | _ => simp [Turn.ofPacks] at ht

/-! ## The episodes of a season -/

/-- **Between the candidates for the episodes of a season**: the needed episodes of the loop are
those of its entry, as long as that is left. -/
structure Taking (start st : Batch) : Prop where
  conserved : start.Conserved st
  need_iff : ∀ l, st.need = some l → (st.slot st.key st.tv).live = true →
    ∀ e, (st.slot st.key st.tv).Wants e ↔ e ∈ l

theorem Packing.taking (h : Packing start st) : Taking start st where
  conserved := h.conserved
  need_iff := by simp [h.idle]

/-- The same entry and needed episodes. -/
theorem Taking.congr (h : Taking start st) (hconserved : start.Conserved st')
    (hneeds : st'.needs = st.needs) (hneed : st'.need = st.need) (hkey : st'.key = st.key)
    (htv : st'.tv = st.tv) : Taking start st' where
  conserved := hconserved
  need_iff := by
    simp only [Batch.slot, hneeds, hneed, hkey, htv]
    exact h.need_iff

theorem Taking.framed (h : Taking start st) (hframed : st.Framed st') : Taking start st' := by
  obtain ⟨_, _, rfl⟩ := hframed
  exact h.congr (h.conserved.congr rfl rfl) rfl rfl rfl rfl

/-- A download that the loops over the episodes lead to: the candidate is of the one season, and
it brings needed episodes. -/
structure Offered (env : DownloadEnv) (st st' : Batch) (p : Plan) (need : List ℕ) : Prop where
  open_need : st.need = some need
  framed : st.Framed st'
  about : p.about = some (st.key, st.tv, need)
  season : ∃ s : ℕ, (st'.items p.place).media.getSeasonList = [s] ∧
    (s : ℤ) = (st.slot st.key st.tv).number
  needed : ∀ id, ∀ e ∈ env.brought st' id p, e ∈ need

theorem offered_of_episode {i : ℕ} (h : env.considerEpisode st i = (st', some p)) :
    ∃ need, Offered env st st' p need := by
  have hframed : st.Framed st' := by
    have hframe := @framed_considerEpisode env st i
    rwa [h] at hframe
  obtain ⟨need, hneed, relative, hoffer, rfl, rfl⟩ := env.considerEpisode_iff.mp h
  obtain ⟨released, -, hrelative⟩ := hoffer.episodes
  refine ⟨need, hneed, hframed, rfl, ?_, ?_⟩
  · obtain ⟨s, hlist, hs⟩ := List.map_eq_singleton_iff.mp hoffer.season
    refine ⟨s, ?_, hs⟩
    simp only [Plan.place, Batch.setItem, Function.update_self]
    rw [seasons_withEpisodes, seasons_linked, hlist]
  · intro id e he
    exact mem_need_of_relative hrelative he

theorem offered_of_unpack {i : ℕ} (h : env.considerUnpack st i = (st', some p)) :
    ∃ need, Offered env st st' p need := by
  have hframed : st.Framed st' := by
    have hframe := @framed_considerUnpack env st i
    rwa [h] at hframe
  obtain ⟨need, hneed, -, hoffer, rfl, rfl⟩ := env.considerUnpack_iff.mp h
  refine ⟨need, hneed, hframed, ?_, ?_, ?_⟩
  · simp only [unpackPlan]
    split <;> rfl
  · obtain ⟨s, hlist, hs⟩ := List.map_eq_singleton_iff.mp hoffer.season
    rw [place_unpackPlan, seasons_fetchUrl]
    exact ⟨s, hlist, hs⟩
  · intro id e he
    simp only [unpackPlan] at he
    split at he
    · simp only [brought] at he
      split at he
      · rename_i found hfound
        obtain ⟨released, -, hmatch⟩ := Option.map_eq_some_iff.mp hfound
        split_ifs at hmatch
        obtain rfl := Option.some.inj hmatch
        exact mem_need_of_match he
      · simp at he
    · exact mem_need_of_match he

theorem offered (ht : t.ofEpisodes = true) (h : env.consider st t = (st', some p)) :
    ∃ need, Offered env st st' p need := by
  cases t with
  | episode i => exact offered_of_episode h
  | unpack i => exact offered_of_unpack h
  | film i => simp [Turn.ofEpisodes] at ht
  | pack i => simp [Turn.ofEpisodes] at ht
  | openSeasons k => simp [Turn.ofEpisodes] at ht
  | openSeries k => simp [consider] at h
  | openEpisodes j => simp [consider] at h
  | openPacks j => simp [consider] at h

/-- What the download of a loop is credited with. -/
theorem Offered.credits_iff (h : Offered env st st' p need)
    (hid : (env.attempt st' p).id = some id) {k : IdValue} :
    (env.attempt st' p).Credits k n e ↔ env.keeps st' id p = true ∧ k = st.key ∧
      n = (st.slot st.key st.tv).number ∧ e ∈ env.brought st' id p := by
  obtain ⟨hkept, hbrings⟩ := attempt_of_id hid
  obtain ⟨s, hlist, hs⟩ := h.season
  have hitem : (env.attempt st' p).item.media.getSeasonList = [s] := hlist
  have hplan : (env.attempt st' p).plan = p := rfl
  have hseries : p.series = some st.key ∧ p.isPack = false := by
    have habout := h.about
    cases p with
    | film i name => simp [Plan.about] at habout
    | pack k i => simp [Plan.about] at habout
    | _ =>
      simp only [Plan.about, Option.some.injEq, Prod.mk.injEq] at habout
      exact ⟨congrArg some habout.1, rfl⟩
  simp only [Attempt.Credits, hkept, hbrings, hitem, hplan, hseries, List.mem_singleton,
    exists_eq_left, hs, Bool.false_eq_true, false_or, Option.some.injEq]
  simp only [eq_comm]

/-- A download that takes nothing off brings nothing where it stays, and changes no needs. -/
theorem credit_of_not_taking {k : IdValue} (habout : p.about = some (k, j, need))
    (h : env.taking st id p = false) : env.credit st id p = st ∧
      (env.keeps st id p = true → env.brought st id p = []) := by
  cases p with
  | film i name => simp [Plan.about] at habout
  | pack k i => simp [Plan.about] at habout
  | episode k j i need relative => simp [taking] at h
  | unpack k j i need relative => simp [taking] at h
  | magnet k j i need =>
    simp only [taking, credit, keeps, brought] at h ⊢
    cases hfiles : env.magnetFiles st k j need id with
    | none => simp
    | some answer =>
      cases answer with
      | none => simp
      | some found =>
        rw [hfiles] at h
        simp only [ne_eq, decide_not, Bool.not_eq_false', decide_eq_true_eq] at h
        simp [h]

/-- A download that takes episodes off leaves the needed ones that it does not bring. -/
theorem credit_of_taking {k : IdValue} (habout : p.about = some (k, j, need))
    (h : env.taking st id p = true) : ∃ items, env.credit st id p =
      { st with
        items := items
        needs := Function.update st.needs k (Need.updateEpisodes (st.slot k j).number
          (need.filter (· ∉ env.brought st id p)) (st.needs k))
        need := some (need.filter (· ∉ env.brought st id p)) } := by
  cases p with
  | film i name => simp [Plan.about] at habout
  | pack k i => simp [Plan.about] at habout
  | episode k j i need relative =>
    obtain ⟨rfl, rfl, rfl⟩ := by simpa [Plan.about] using habout
    exact ⟨_, rfl⟩
  | unpack k j i need relative =>
    obtain ⟨rfl, rfl, rfl⟩ := by simpa [Plan.about] using habout
    exact ⟨_, rfl⟩
  | magnet k j i need =>
    obtain ⟨rfl, rfl, rfl⟩ := by simpa [Plan.about] using habout
    obtain ⟨found, hfiles, hfound⟩ : ∃ found, env.magnetFiles st k j need id = some (some found) ∧
        found.1 ≠ [] := by
      simp only [taking] at h
      split at h
      · exact ⟨_, by assumption, of_decide_eq_true h⟩
      · simp at h
    have hbrought : env.brought st id (.magnet k j i need) = found.2 := by
      simp only [brought, hfiles]
    rw [hbrought]
    simp only [credit, hfiles, if_neg hfound]
    exact ⟨_, rfl⟩

theorem settle_eq (st : Batch) (id : Text) (p : Plan) : ∃ removed,
    env.settle st id p = { env.credit st id p with removed := removed } := by
  rw [settle]
  split_ifs
  · exact ⟨_, rfl⟩
  · exact ⟨_, rfl⟩

theorem sound_iff (hconsider : env.consider st t = (st', some p))
    (hid : (env.attempt st' p).id = some id) : env.Sound st t ↔
      (st.raised = false → env.taking st' id p = true → env.keeps st' id p = true ∧
        Need.Sole (st.needs st.key) st.tv (env.brought st' id p)) := by
  rw [Sound, hconsider]
  simp only [hid]

/-- A download that fails. -/
theorem Taking.fail (h : Taking start st) (hid : (env.attempt st p).id = none) :
    Taking start (env.download st p).1 := by
  have hdownload : (env.download st p).1 = { st with log := st.log ++ [env.attempt st p] }.setItem
      p.place { st.items p.place with failed := true } := by
    simp only [download, hid]
  rw [hdownload]
  refine h.congr (h.conserved.of_not_kept rfl ?_ rfl) rfl rfl rfl rfl
  intro k n e hcredits
  exact Bool.false_ne_true ((not_kept_of_id hid).symm.trans hcredits.1)

/-- A download that takes nothing off. -/
theorem Taking.spare (h : Taking start st) (hoffer : Offered env st st' p need)
    (hid : (env.attempt st' p).id = some id) (hnot : env.taking st' id p = false) :
    Taking start (env.settle (env.download st' p).1 id p) := by
  have hst' := h.framed hoffer.framed
  obtain ⟨downloaded, hdownload⟩ := download_of_id hid
  have hnone : ∀ k n e, ¬(env.attempt st' p).Credits k n e := by
    intro k n e hcredits
    obtain ⟨hkept, -, -, he⟩ := (hoffer.credits_iff hid).mp hcredits
    rw [(credit_of_not_taking hoffer.about hnot).2 hkept] at he
    exact absurd he List.not_mem_nil
  have hnot' : env.taking (env.download st' p).1 id p = false := by
    rw [hdownload, ← hnot]
    cases p <;> rfl
  obtain ⟨removed, hsettle⟩ := settle_eq (env.download st' p).1 id p
  rw [hsettle, (credit_of_not_taking hoffer.about hnot').1, hdownload]
  exact hst'.congr (hst'.conserved.of_not_kept rfl hnone rfl) rfl rfl rfl rfl

/-- **Needed episodes are taken off** the entry of the loop, which alone has them, and credited. -/
theorem Taking.taken (h : Taking start st) {taken : List ℕ} {a : Attempt}
    (hneed : st.need = some need) (htaken : ∀ e ∈ taken, e ∈ need)
    (hsole : Need.Sole (st.needs st.key) st.tv taken)
    (hcredits : ∀ k n e, a.Credits k n e ↔
      k = st.key ∧ n = (st.slot st.key st.tv).number ∧ e ∈ taken)
    (hlog : st'.log = st.log ++ [a])
    (hneeds : st'.needs = Function.update st.needs st.key (Need.updateEpisodes
      (st.slot st.key st.tv).number (need.filter (· ∉ taken)) (st.needs st.key)))
    (hleft : st'.need = some (need.filter (· ∉ taken))) (hkey : st'.key = st.key)
    (htv : st'.tv = st.tv) : Taking start st' := by
  have hlive : (st.slot st.key st.tv).live = true := hsole.live
  have hwants := h.need_iff need hneed hlive
  refine ⟨h.conserved.snoc hlog ?_ ?_, ?_⟩
  · intro k n e _ hcredited
    obtain ⟨rfl, rfl, he⟩ := (hcredits k n e).mp hcredited
    exact ⟨st.slot st.key st.tv, hsole.mem, hlive, rfl, (hwants e).mpr (htaken e he)⟩
  · intro k n e
    rw [hcredits, Batch.Needed, Batch.Needed, hneeds]
    by_cases hk : k = st.key
    · subst hk
      rw [Function.update_self]
      simp only [true_and]
      exact Need.open_updateEpisodes hsole hwants
    · simp only [Function.update_of_ne hk, hk, false_and, not_false_eq_true, and_true]
  · intro l hl hlive' e
    obtain rfl := Option.some.inj (hleft.symm.trans hl)
    rw [Batch.slot, hneeds, hkey, htv, Function.update_self] at hlive' ⊢
    exact Need.wants_updateEpisodes hsole hlive'

/-- A download that takes episodes off and stays. -/
theorem Taking.take (h : Taking start st) (hoffer : Offered env st st' p need)
    (hid : (env.attempt st' p).id = some id) (htaking : env.taking st' id p = true)
    (hkeeps : env.keeps st' id p = true)
    (hsole : Need.Sole (st.needs st.key) st.tv (env.brought st' id p)) :
    Taking start (env.settle (env.download st' p).1 id p) := by
  obtain ⟨downloaded, hdownload⟩ := download_of_id hid
  have htaking' : env.taking (env.download st' p).1 id p = true := by
    rw [hdownload, ← htaking]
    cases p <;> rfl
  have hbrought : env.brought (env.download st' p).1 id p = env.brought st' id p := by
    rw [hdownload]
    cases p <;> rfl
  obtain ⟨removed, hsettle⟩ := settle_eq (env.download st' p).1 id p
  obtain ⟨items, hcredit⟩ := credit_of_taking hoffer.about htaking'
  have hcredits : ∀ k n e, (env.attempt st' p).Credits k n e ↔
      k = st.key ∧ n = (st.slot st.key st.tv).number ∧ e ∈ env.brought st' id p := by
    intro k n e
    rw [hoffer.credits_iff hid, and_iff_right hkeeps]
  rw [hsettle, hcredit, hbrought, hdownload]
  have hneed := hoffer.open_need
  have hneeded := hoffer.needed id
  obtain ⟨_, _, rfl⟩ := hoffer.framed
  exact h.taken hneed hneeded hsole hcredits rfl rfl rfl rfl rfl

/-- The loop over the candidates for a needed season starts from its episodes. -/
theorem need_openEpisodes {l : List ℕ} (h : (env.consider st (.openEpisodes j)).1.need = some l) :
    (st.slot st.key j).Wants e ↔ e ∈ l := by
  simp only [consider] at h
  split_ifs at h with hskip hlisted htotal
  · obtain rfl := Option.some.inj h
    rw [Need.Wants, if_pos hlisted]
  · obtain rfl := Option.some.inj h
    rw [Need.Wants, if_neg hlisted, List.mem_range'_1]
    omega

theorem need_openPacks {l : List ℕ} (h : (env.consider st (.openPacks j)).1.need = some l) :
    (st.slot st.key j).Wants e ↔ e ∈ l := by
  simp only [consider] at h
  split_ifs at h with hskip
  obtain rfl := Option.some.inj h
  rw [not_or] at hskip
  rw [Need.Wants, if_pos hskip.2]

/-- **A turn of the loops over the episodes.** -/
theorem taking_turn (h : Taking start st) (ht : t.ofEpisodes = true) (hsound : env.Sound st t) :
    Taking start (env.turn st t) := by
  rcases env.turn_cases st t with ⟨-, hturn⟩ | ⟨-, st', hconsider, hturn⟩ |
    ⟨-, st', p, hconsider, hid, hturn⟩ | ⟨hraised, st', p, id, hconsider, hid, hturn⟩
  · rwa [hturn]
  · rw [hturn]
    have hst' : (env.consider st t).1 = st' := congrArg Prod.fst hconsider
    subst hst'
    cases t with
    | episode i => exact h.framed env.framed_considerEpisode
    | unpack i => exact h.framed env.framed_considerUnpack
    | openSeries k => exact ⟨h.conserved.congr rfl rfl, by simp [consider]⟩
    | openEpisodes j =>
      refine ⟨h.conserved.congr rfl rfl, ?_⟩
      intro l hl _ e
      exact @need_openEpisodes env st j e l hl
    | openPacks j =>
      refine ⟨h.conserved.congr rfl rfl, ?_⟩
      intro l hl _ e
      exact @need_openPacks env st j e l hl
    | _ => simp [Turn.ofEpisodes] at ht
  · rw [hturn]
    obtain ⟨need, hoffer⟩ := offered ht hconsider
    exact (h.framed hoffer.framed).fail hid
  · rw [hturn]
    obtain ⟨need, hoffer⟩ := offered ht hconsider
    by_cases htaking : env.taking st' id p = true
    · obtain ⟨hkeeps, hsole⟩ := (sound_iff hconsider hid).mp hsound hraised htaking
      exact h.take hoffer hid htaking hkeeps hsole
    · rw [Bool.not_eq_true] at htaking
      exact h.spare hoffer hid htaking

/-! ## Every run -/

theorem ofPacks_of_mem {keys : List IdValue} {list : List ℕ}
    (h : t ∈ keys.flatMap fun k => .openSeasons k :: list.map .pack) : t.ofPacks = true := by
  obtain ⟨k, -, ht⟩ := List.mem_flatMap.mp h
  rcases List.mem_cons.mp ht with rfl | ht
  · rfl
  · obtain ⟨i, -, rfl⟩ := List.mem_map.mp ht
    rfl

theorem ofEpisodes_of_mem {keys : List IdValue} {slots : IdValue → ℕ} {list : List ℕ}
    {opened body : ℕ → Turn} (hopened : ∀ j, (opened j).ofEpisodes = true)
    (hbody : ∀ i, (body i).ofEpisodes = true) (h : t ∈ seasonTurns keys slots list opened body) :
    t.ofEpisodes = true := by
  obtain ⟨k, -, ht⟩ := List.mem_flatMap.mp h
  rcases List.mem_cons.mp ht with rfl | ht
  · rfl
  obtain ⟨j, -, ht⟩ := List.mem_flatMap.mp ht
  rcases List.mem_cons.mp ht with rfl | ht
  · exact hopened j
  · obtain ⟨i, -, rfl⟩ := List.mem_map.mp ht
    exact hbody i

/-- **Needed episodes are conserved in every run** of the season packs and of the episode
strategies, after each turn, where at every turn what a download takes off is taken off its own
entry, which alone has it, and the download stays. -/
theorem conserved_of_sound (env : DownloadEnv) (table : IdValue → List Need) (keys : List IdValue)
    (slots : IdValue → ℕ) (items : List Candidate) (list : List ℕ)
    (h : Run.Along env.turn env.Sound (Batch.opened table items) (strategyTurns keys slots list))
    (n : ℕ) : (Batch.opened table items).Conserved
      (((strategyTurns keys slots list).take n).foldl env.turn (Batch.opened table items)) := by
  set start := Batch.opened table items
  set packs := keys.flatMap fun k => Turn.openSeasons k :: list.map .pack
  set episodes := seasonTurns keys slots list .openEpisodes .episode ++
    seasonTurns keys slots list .openPacks .unpack
  have hturns : strategyTurns keys slots list = packs ++ episodes := rfl
  have hpacks : ∀ n, Packing start ((packs.take n).foldl env.turn start) := by
    intro n
    refine Run.invariant (Packing start) (Packing.of_opened table items) ?_
    intro st hst t ht
    exact packing_turn hst (ofPacks_of_mem (List.mem_of_mem_take ht))
  have hkind : ∀ t ∈ episodes, t.ofEpisodes = true := by
    intro t ht
    rcases List.mem_append.mp ht with ht | ht
    · exact ofEpisodes_of_mem (fun _ => rfl) (fun _ => rfl) ht
    · exact ofEpisodes_of_mem (fun _ => rfl) (fun _ => rfl) ht
  rw [hturns] at h ⊢
  have hepisodes : ∀ m,
      Taking start ((episodes.take m).foldl env.turn (packs.foldl env.turn start)) := by
    intro m
    have hstart : Taking start (packs.foldl env.turn start) := by
      have hwhole := hpacks packs.length
      rw [List.take_length] at hwhole
      exact hwhole.taking
    have halong := (((Run.along_append.mp h).2).and_mem hkind).take m
    refine Run.invariant_along (Taking start) hstart halong ?_
    rintro st t hst ⟨hsound, ht⟩
    exact taking_turn hst ht hsound
  rw [List.take_append, List.foldl_append]
  by_cases hn : n ≤ packs.length
  · rw [Nat.sub_eq_zero_of_le hn]
    exact (hpacks n).conserved
  · rw [List.take_of_length_le (by omega)]
    exact (hepisodes _).conserved

/-- A downloader with which everything succeeds. -/
def selecting : DownloadEnv where
  bySeeders := false
  downloadUrl _ := some none
  torrentEpisodes _ := some [1, 2, 3]
  add _ _ _ := some (of "1")
  tidEpisodes _ := some []
  setFilesFails _ := false
  startFails _ := false
  removeFails _ := false

/-- A series with one entry. -/
def oneEntry (x : Need) (k : IdValue) : List Need := if k = .text (of "tmdb:5") then [x] else []

/-- The needed episodes are selected from a pack, and needed no longer. -/
theorem selected_conserved :
    (Batch.opened (oneEntry ⟨some 1, [2, 3], 4, 0, true⟩) [partialPack]).Conserved
      (((strategyTurns [.text (of "tmdb:5")] (fun _ => 1) [0]).take 8).foldl selecting.turn
        (Batch.opened (oneEntry ⟨some 1, [2, 3], 4, 0, true⟩) [partialPack])) :=
  conserved_of_sound selecting (oneEntry ⟨some 1, [2, 3], 4, 0, true⟩) [.text (of "tmdb:5")]
    (fun _ => 1) [partialPack] [0] (by decide +kernel) 8

/-- A candidate of two episodes. -/
def twoEpisodes (rest : ℕ) : Candidate where
  media :=
    { type := some .tv, tmdbId := .int 5, beginSeason := some 1, beginEpisode := some 1
      endEpisode := some 2, enclosure := some (of "http://pt.example/1") }
  rest := rest

/-- The state after the strategies for an entry without a season and two such candidates. -/
def seasonlessRun : Batch :=
  (strategyTurns [.text (of "tmdb:5")] (fun _ => 1) [0, 1]).foldl selecting.turn
    (Batch.opened (oneEntry ⟨none, [1, 2], 0, 0, true⟩) [twoEpisodes 0, twoEpisodes 1])

/-- Both candidates are downloaded, each for both episodes, and these are still needed. -/
theorem seasonless_downloaded_twice :
    ¬(Batch.opened (oneEntry ⟨none, [1, 2], 0, 0, true⟩) [twoEpisodes 0, twoEpisodes 1]).Conserved
        seasonlessRun ∧
      seasonlessRun.log.map (fun a => (a.plan.place, a.kept, a.brings)) =
        [(0, true, [1, 2]), (1, true, [1, 2])] ∧
      seasonlessRun.needs (.text (of "tmdb:5")) = [⟨none, [1, 2], 0, 0, true⟩] := by
  refine ⟨?_, by decide +kernel, by decide +kernel⟩
  intro h
  refine absurd (h.left (.text (of "tmdb:5")) 1 1) ?_
  decide +kernel

end DownloadEnv

end WolfNas
