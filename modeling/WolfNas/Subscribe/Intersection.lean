import WolfNas.Subscribe.RssFeed
import Mathlib.Data.List.Dedup
import Mathlib.Data.Set.Basic

/-!
# The seasons that are needed and missing

`get_intersection_episodes` leaves of the needed seasons what the library misses.  A needed
season stands for the episodes it lists, or for all of them where it has no list; it is compared
with the first missing season of its number.  A missing season with an empty list is taken for one
without a list, and a title of which nothing is needed takes over what is missing.

## Main definitions

* `SeasonInfo`, `SeasonInfo.denotes` — a season, and the episodes it stands for.
* `SeasonInfo.getIntersectionEpisodes` — the function.
* `SeasonInfo.intersectInPlace` — the loop, which writes the seasons where they are.
* `SeasonInfo.Intersects`, `SeasonInfo.FirstDecides` — the intersection, and when it is one.

## Main results

* `SeasonInfo.denotes_meet`, `SeasonInfo.denoted_map` — what is left of a season.
* `SeasonInfo.intersects_iff` — when the result is the intersection.
* `SeasonInfo.inPlace_same` — it does not matter that the seasons are written in place, and that
  some of them may be the missing ones.
-/

namespace WolfNas

open Text

/-- A season, needed or missing; its list of episodes may be absent. -/
structure SeasonInfo where
  season : Option ℤ
  episodes : Option (List ℕ)
  totalEpisodes : Option ℕ := none
  episodeOffset : Option ℕ := none
  deriving DecidableEq, Repr

namespace SeasonInfo

/-- The episodes a season stands for. -/
def denotes (e : SeasonInfo) : Set ℕ :=
  match e.episodes with
  | none => Set.univ
  | some l => {x | x ∈ l}

/-- The episodes the seasons of a number stand for. -/
def denoted (entries : List SeasonInfo) (s : Option ℤ) : Set ℕ :=
  {x | ∃ e ∈ entries, e.season = s ∧ x ∈ e.denotes}

/-- What is left of a needed season. -/
def meet (e f : SeasonInfo) : SeasonInfo :=
  match f.episodes with
  | none | some [] => e
  | some missing => match e.episodes with
    | none => { e with episodes := some missing }
    | some [] => e
    | some needed => { e with episodes := some (needed.filter (· ∈ missing)).dedup }

/-- The first of the missing seasons of the same number decides. -/
def meetFirst (source : List SeasonInfo) (e : SeasonInfo) : SeasonInfo :=
  match source.find? fun f => f.season = e.season with
  | none => e
  | some f => e.meet f

/-- `get_intersection_episodes`. -/
def getIntersectionEpisodes (target source : Dict IdValue (List SeasonInfo)) (title : IdValue) :
    Dict IdValue (List SeasonInfo) :=
  if !title.truthy then target
  else match source.get title with
    | none | some [] => target
    | some missing => match target.get title with
      | none | some [] => target.set title missing
      | some needed => target.set title (needed.map (meetFirst missing))

/-- The seasons of a title. -/
def listed (d : Dict IdValue (List SeasonInfo)) (title : IdValue) : List SeasonInfo :=
  (d.get title).getD []

/-- The result is the intersection, season by season. -/
structure Intersects (target source result : Dict IdValue (List SeasonInfo)) (title : IdValue) :
    Prop where
  /-- Of a season that is in both, the episodes that are in both are left. -/
  meets : ∀ s, s ∈ (listed target title).map season → s ∈ (listed source title).map season →
    denoted (listed result title) s =
      denoted (listed target title) s ∩ denoted (listed source title) s
  /-- Every other season stays. -/
  seasons : ∀ s, s ∉ (listed target title).map season ∨ s ∉ (listed source title).map season →
    (listed result title).filter (·.season = s) = (listed target title).filter (·.season = s)
  /-- Every other title stays. -/
  titles : ∀ t, t ≠ title → result.get t = target.get t
  /-- No more is needed than before. -/
  shrinks : ∀ s, denoted (listed result title) s ⊆ denoted (listed target title) s

/-! ## What is left of a season -/

variable {e f : SeasonInfo} {source target : List SeasonInfo} {s : Option ℤ}

@[simp] theorem season_meet (e f : SeasonInfo) : (e.meet f).season = e.season := by
  rw [meet]
  split
  · rfl
  · rfl
  · split <;> rfl

@[simp] theorem season_meetFirst (source : List SeasonInfo) (e : SeasonInfo) :
    (e.meetFirst source).season = e.season := by
  rw [meetFirst]
  split
  · rfl
  · exact season_meet e _

/-- An empty list of missing episodes leaves all. -/
theorem denotes_meet (e f : SeasonInfo) : (e.meet f).denotes =
    if f.episodes = some [] then e.denotes else e.denotes ∩ f.denotes := by
  obtain ⟨s, episodes, total, offset⟩ := e
  obtain ⟨s', missing, total', offset'⟩ := f
  rcases missing with _ | (_ | ⟨x, missing⟩)
  · simp [meet, denotes]
  · simp [meet]
  · rcases episodes with _ | (_ | ⟨y, needed⟩)
    · simp [meet, denotes]
    · simp [meet, denotes]
    · ext z
      simp [meet, denotes, List.mem_dedup]

/-- What is left of the seasons of a number. -/
theorem denoted_map (source target : List SeasonInfo) (s : Option ℤ) :
    denoted (target.map (meetFirst source)) s = match source.find? fun f => f.season = s with
      | none => denoted target s
      | some f =>
        if f.episodes = some [] then denoted target s else denoted target s ∩ f.denotes := by
  have hmap : denoted (target.map (meetFirst source)) s =
      {x | ∃ e ∈ target, e.season = s ∧ x ∈ (e.meetFirst source).denotes} := by
    ext x
    simp [denoted]
  rw [hmap]
  cases hfind : source.find? fun f => f.season = s with
  | none =>
    ext x
    refine exists_congr fun e => and_congr_right fun _ => and_congr_right fun hs => ?_
    subst hs
    simp [meetFirst, hfind]
  | some f =>
    have hleft : ∀ e : SeasonInfo, e.season = s → (e.meetFirst source).denotes =
        if f.episodes = some [] then e.denotes else e.denotes ∩ f.denotes := by
      rintro e rfl
      rw [meetFirst, hfind]
      exact denotes_meet e f
    simp only
    split_ifs with hempty
    · ext x
      refine exists_congr fun e => and_congr_right fun _ => and_congr_right fun hs => ?_
      rw [hleft e hs, if_pos hempty]
    · ext x
      constructor
      · rintro ⟨e, he, hs, hx⟩
        rw [hleft e hs, if_neg hempty] at hx
        exact ⟨⟨e, he, hs, hx.1⟩, hx.2⟩
      · rintro ⟨⟨e, he, hs, hx⟩, hf⟩
        refine ⟨e, he, hs, ?_⟩
        rw [hleft e hs, if_neg hempty]
        exact ⟨hx, hf⟩

/-- Seasons that none is missing of stay. -/
theorem filter_meetFirst (h : s ∉ source.map season) :
    (target.map (meetFirst source)).filter (·.season = s) = target.filter (·.season = s) := by
  induction target with
  | nil => rfl
  | cons e target ih =>
    by_cases hs : e.season = s
    · have hnone : source.find? (fun f => f.season = e.season) = none := by
        rw [List.find?_eq_none]
        intro f hf hseason
        refine h (List.mem_map.mpr ⟨f, hf, ?_⟩)
        exact (of_decide_eq_true hseason).trans hs
      have hstay : e.meetFirst source = e := by rw [meetFirst, hnone]
      rw [List.map_cons, List.filter_cons_of_pos (by simp [hs]),
        List.filter_cons_of_pos (by simp [hs]), ih, hstay]
    · rw [List.map_cons, List.filter_cons_of_neg (by simp [hs]),
        List.filter_cons_of_neg (by simp [hs]), ih]

/-! ## When the result is the intersection -/

variable {needs missing : Dict IdValue (List SeasonInfo)} {title : IdValue}

/-- The result, by what is needed and missing of the title. -/
theorem getIntersectionEpisodes_eq (needs missing : Dict IdValue (List SeasonInfo))
    (title : IdValue) : getIntersectionEpisodes needs missing title =
      if title.truthy = false ∨ listed missing title = [] then needs
      else if listed needs title = [] then needs.set title (listed missing title)
      else needs.set title ((listed needs title).map (meetFirst (listed missing title))) := by
  rw [getIntersectionEpisodes, listed, listed]
  rcases title.truthy
  · simp
  · rcases missing.get title with _ | (_ | ⟨f, source⟩)
    · simp
    · simp
    · rcases needs.get title with _ | (_ | ⟨e, target⟩)
      · simp
      · simp
      · simp

/-- The result is the needed seasons where each first missing season of a number decides: nothing
is needed besides it that a later one of its number misses; where it decides nothing, all that is
needed is missing. -/
structure FirstDecides (needs missing : Dict IdValue (List SeasonInfo)) (title : IdValue) :
    Prop where
  /-- A title of which nothing is needed has nothing missing that it could take over. -/
  taken : title.truthy = true → listed needs title = [] → listed missing title = []
  decides : ∀ s f, s ∈ (listed needs title).map season →
    (listed missing title).find? (fun f => f.season = s) = some f →
    if title.truthy = true ∧ f.episodes ≠ some [] then
      denoted (listed needs title) s ∩ denoted (listed missing title) s ⊆ f.denotes
    else denoted (listed needs title) s ⊆ denoted (listed missing title) s

theorem exists_find (source : List SeasonInfo) (s : Option ℤ) :
    (∃ f, source.find? (fun f => f.season = s) = some f) ↔ s ∈ source.map season := by
  rw [← Option.isSome_iff_exists, List.find?_isSome]
  simp

theorem listed_set (needs : Dict IdValue (List SeasonInfo)) (title : IdValue)
    (l : List SeasonInfo) : listed (needs.set title l) title = l := by
  simp [listed]

/-- What is needed is left as it is exactly where all of it is missing. -/
theorem intersects_self_iff (needs missing : Dict IdValue (List SeasonInfo)) (title : IdValue) :
    Intersects needs missing needs title ↔
      ∀ s f, s ∈ (listed needs title).map season →
        (listed missing title).find? (fun f => f.season = s) = some f →
        denoted (listed needs title) s ⊆ denoted (listed missing title) s := by
  constructor
  · intro h s f hs hf
    have hboth := h.meets s hs ((exists_find _ s).mp ⟨f, hf⟩)
    exact Set.inter_eq_left.mp hboth.symm
  · intro h
    refine ⟨?_, fun _ _ => rfl, fun _ _ => rfl, fun _ => subset_rfl⟩
    intro s hs hs'
    obtain ⟨f, hf⟩ := (exists_find _ s).mpr hs'
    exact (Set.inter_eq_left.mpr (h s f hs hf)).symm

/-- **When the result is the intersection**, for any needed and missing seasons. -/
theorem intersects_iff (needs missing : Dict IdValue (List SeasonInfo)) (title : IdValue) :
    Intersects needs missing (getIntersectionEpisodes needs missing title) title ↔
      FirstDecides needs missing title := by
  rw [getIntersectionEpisodes_eq]
  split_ifs with hstay hempty
  · -- What is needed is not compared.
    rw [intersects_self_iff]
    rcases hstay with htitle | hnone
    · constructor
      · intro h
        refine ⟨by simp [htitle], ?_⟩
        simpa [htitle] using h
      · intro h
        simpa [htitle] using h.decides
    · constructor
      · intro h
        exact ⟨fun _ _ => hnone, by simp [hnone]⟩
      · intro h
        simp [hnone]
  · -- Nothing is needed, and what is missing is taken over.
    push Not at hstay
    constructor
    · intro h
      obtain ⟨f, hf⟩ := List.exists_mem_of_ne_nil _ hstay.2
      have hseason := h.seasons f.season (.inl (by simp [hempty]))
      rw [listed_set, hempty, List.filter_nil, List.filter_eq_nil_iff] at hseason
      exact absurd (by simp) (hseason f hf)
    · intro h
      exact absurd (h.taken (by simpa using hstay.1) hempty) hstay.2
  · push Not at hstay
    have htitle : title.truthy = true := by simpa using hstay.1
    have hleft : ∀ s f, (listed missing title).find? (fun f => f.season = s) = some f →
        denoted ((listed needs title).map (meetFirst (listed missing title))) s =
          if f.episodes = some [] then denoted (listed needs title) s
          else denoted (listed needs title) s ∩ f.denotes := by
      intro s f hf
      rw [denoted_map, hf]
    have hfirst : ∀ s f, (listed missing title).find? (fun f => f.season = s) = some f →
        f.denotes ⊆ denoted (listed missing title) s := by
      intro s f hf x hx
      exact ⟨f, List.mem_of_find?_eq_some hf, by simpa using List.find?_some hf, hx⟩
    constructor
    · intro h
      refine ⟨fun _ hnone => absurd hnone hempty, ?_⟩
      intro s f hs hf
      have hboth := h.meets s hs ((exists_find _ s).mp ⟨f, hf⟩)
      rw [listed_set, hleft s f hf] at hboth
      by_cases hlist : f.episodes = some []
      · rw [if_pos hlist] at hboth
        rw [if_neg (by simp [hlist])]
        exact Set.inter_eq_left.mp hboth.symm
      · rw [if_neg hlist] at hboth
        rw [if_pos ⟨htitle, hlist⟩, ← hboth]
        exact Set.inter_subset_right
    · intro h
      refine ⟨?_, ?_, ?_, ?_⟩
      · intro s hs hs'
        obtain ⟨f, hf⟩ := (exists_find _ s).mpr hs'
        have hdecides := h.decides s f hs hf
        rw [listed_set, hleft s f hf]
        by_cases hlist : f.episodes = some []
        · rw [if_neg (by simp [hlist])] at hdecides
          rw [if_pos hlist]
          exact (Set.inter_eq_left.mpr hdecides).symm
        · rw [if_pos ⟨htitle, hlist⟩] at hdecides
          rw [if_neg hlist]
          refine Set.Subset.antisymm ?_ ?_
          · exact Set.inter_subset_inter_right _ (hfirst s f hf)
          · exact Set.subset_inter Set.inter_subset_left hdecides
      · intro s hs
        rw [listed_set]
        rcases hs with hs | hs
        · have hnone : ∀ l : List SeasonInfo, s ∉ l.map season →
              l.filter (·.season = s) = [] := by
            intro l hl
            rw [List.filter_eq_nil_iff]
            intro e he hseason
            exact hl (List.mem_map.mpr ⟨e, he, by simpa using hseason⟩)
          have hmap : ((listed needs title).map (meetFirst (listed missing title))).map season =
              (listed needs title).map season := by
            simp
          rw [hnone _ hs, hnone _ (by rwa [hmap])]
        · exact filter_meetFirst hs
      · intro t ht
        rw [Dict.get_set, if_neg ht]
      · intro s
        rw [listed_set, denoted_map]
        split
        · exact subset_rfl
        · split_ifs
          · exact subset_rfl
          · exact Set.inter_subset_left

/-- One entry with a list of episodes. -/
def oneSeason (episodes : List ℕ) : List SeasonInfo := [⟨some 1, some episodes, none, none⟩]

/-- A title of which all is dealt with is needed again, and a season of which nothing is missing
stays needed. -/
theorem dealt_with_needed_again :
    ¬Intersects (Dict.empty.set (.int 7) []) (Dict.empty.set (.int 7) (oneSeason [1, 2]))
      (getIntersectionEpisodes (Dict.empty.set (.int 7) [])
        (Dict.empty.set (.int 7) (oneSeason [1, 2])) (.int 7)) (.int 7) ∧
    ¬Intersects (Dict.empty.set (.int 7) (oneSeason [1, 2]))
      (Dict.empty.set (.int 7) (oneSeason []))
      (getIntersectionEpisodes (Dict.empty.set (.int 7) (oneSeason [1, 2]))
        (Dict.empty.set (.int 7) (oneSeason [])) (.int 7)) (.int 7) := by
  constructor
  · intro h
    have hseason := h.seasons (some 1) (.inl (by decide))
    revert hseason
    decide
  · intro h
    have hleft := h.meets (some 1) (by decide) (by decide)
    have hone : 1 ∈ denoted (oneSeason [1, 2]) (some 1) :=
      ⟨_, List.mem_singleton_self _, rfl, by simp [denotes]⟩
    have hstays : listed (getIntersectionEpisodes (Dict.empty.set (.int 7) (oneSeason [1, 2]))
        (Dict.empty.set (.int 7) (oneSeason [])) (.int 7)) (.int 7) = oneSeason [1, 2] := by decide
    rw [hstays] at hleft
    rw [hleft] at hone
    obtain ⟨e, he, -, hx⟩ := hone.2
    have hnone : e = ⟨some 1, some [], none, none⟩ := by simpa [listed, oneSeason] using he
    simp [hnone, denotes] at hx

/-! ## Writing in place -/

/-- The seasons are written where they are; a missing season may be one of the needed. -/
def intersectInPlace (source : List ℕ) (heap : ℕ → SeasonInfo) (r : ℕ) : ℕ → SeasonInfo :=
  match source.find? fun j => (heap j).season = (heap r).season with
  | none => heap
  | some j => Function.update heap r ((heap r).meet (heap j))

/-- The seasons stand for the same, and both list it or neither. -/
structure Same (e e' : SeasonInfo) : Prop where
  season : e'.season = e.season
  lists : e'.episodes.isSome = e.episodes.isSome
  denotes : e'.denotes = e.denotes

theorem Same.refl (e : SeasonInfo) : e.Same e := ⟨rfl, rfl, rfl⟩

theorem Same.trans {e e' e'' : SeasonInfo} (h : e.Same e') (h' : e'.Same e'') : e.Same e'' :=
  ⟨h'.season.trans h.season, h'.lists.trans h.lists, h'.denotes.trans h.denotes⟩

theorem episodes_eq_nil_iff : f.episodes = some [] ↔ f.episodes.isSome = true ∧ f.denotes = ∅ := by
  obtain ⟨s, missing, total, offset⟩ := f
  rcases missing with _ | (_ | ⟨x, missing⟩)
  · simp
  · simp [SeasonInfo.denotes]
  · have hne : x ∈ (⟨s, some (x :: missing), total, offset⟩ : SeasonInfo).denotes := by
      simp [SeasonInfo.denotes]
    simp only [Option.some.injEq, reduceCtorEq, Option.isSome_some, true_and, false_iff]
    exact Set.nonempty_iff_ne_empty.mp ⟨x, hne⟩

theorem isSome_meet (e f : SeasonInfo) : (e.meet f).episodes.isSome =
    (e.episodes.isSome || (f.episodes.isSome && !decide (f.episodes = some []))) := by
  obtain ⟨s, episodes, total, offset⟩ := e
  obtain ⟨s', missing, total', offset'⟩ := f
  rcases missing with _ | (_ | ⟨x, missing⟩)
  · simp [meet]
  · simp [meet]
  · rcases episodes with _ | (_ | ⟨y, needed⟩) <;> simp [meet]

theorem Same.meet {e e' f f' : SeasonInfo} (he : e.Same e') (hf : f.Same f') :
    (e.meet f).Same (e'.meet f') := by
  have hempty : f'.episodes = some [] ↔ f.episodes = some [] := by
    rw [episodes_eq_nil_iff, episodes_eq_nil_iff, hf.lists, hf.denotes]
  refine ⟨?_, ?_, ?_⟩
  · rw [season_meet, season_meet, he.season]
  · rw [isSome_meet, isSome_meet, he.lists, hf.lists, decide_eq_decide.mpr hempty]
  · rw [denotes_meet, denotes_meet, he.denotes, hf.denotes]
    exact if_congr hempty rfl rfl

/-- The same season decides once. -/
theorem same_meet_meet (e f : SeasonInfo) : (e.meet f).Same ((e.meet f).meet f) := by
  refine ⟨season_meet _ _, ?_, ?_⟩
  · rw [isSome_meet, isSome_meet, Bool.or_assoc, Bool.or_self]
  · rw [denotes_meet (e.meet f) f, denotes_meet e f]
    split_ifs
    · rfl
    · rw [Set.inter_assoc, Set.inter_self]

/-- A season decides nothing for itself. -/
theorem same_meet_self (e : SeasonInfo) : e.Same (e.meet e) := by
  refine ⟨season_meet _ _, ?_, ?_⟩
  · rw [isSome_meet]
    cases e.episodes <;> simp
  · rw [denotes_meet]
    split_ifs
    · rfl
    · rw [Set.inter_self]

theorem meetFirst_map (source : List ℕ) (heap : ℕ → SeasonInfo) (e : SeasonInfo) :
    e.meetFirst (source.map heap) =
      match source.find? fun j => (heap j).season = e.season with
      | none => e
      | some j => e.meet (heap j) := by
  rw [meetFirst, List.find?_map]
  have hcomp : ((fun f : SeasonInfo => decide (f.season = e.season)) ∘ heap) =
      fun j => decide ((heap j).season = e.season) := rfl
  rw [hcomp]
  cases source.find? fun j => decide ((heap j).season = e.season) <;> rfl

/-- **The loop writes what `getIntersectionEpisodes` gives**, however the needed seasons are
repeated and are missing ones at the same time. -/
theorem inPlace_same (source : List ℕ) (heap : ℕ → SeasonInfo) (target : List ℕ) (r : ℕ) :
    (r ∈ target → ((heap r).meetFirst (source.map heap)).Same
      (target.foldl (intersectInPlace source) heap r)) ∧
    (r ∉ target → target.foldl (intersectInPlace source) heap r = heap r) := by
  induction target using List.reverseRecOn generalizing r with
  | nil => simp
  | append_singleton target i ih =>
    rw [List.foldl_append, List.foldl_cons, List.foldl_nil]
    generalize target.foldl (intersectInPlace source) heap = heap' at ih
    have hseason : ∀ j, (heap' j).season = (heap j).season := by
      intro j
      by_cases hj : j ∈ target
      · rw [((ih j).1 hj).season, season_meetFirst]
      · rw [(ih j).2 hj]
    -- What stands at the place before the loop comes to it once more.
    have hbefore : (heap i).Same (heap' i) ∨
        ((heap i).meetFirst (source.map heap)).Same (heap' i) := by
      by_cases hi : i ∈ target
      · exact .inr ((ih i).1 hi)
      · rw [(ih i).2 hi]
        exact .inl (.refl _)
    have hplace : ((heap i).meetFirst (source.map heap)).Same
        (intersectInPlace source heap' i i) := by
      rw [intersectInPlace]
      simp only [hseason]
      rw [meetFirst_map] at hbefore ⊢
      cases hfind : source.find? fun j => decide ((heap j).season = (heap i).season) with
      | none =>
        simp only [hfind, or_self] at hbefore
        exact hbefore
      | some j =>
        simp only [hfind] at hbefore
        simp only [Function.update_self]
        have hsame : (heap j).season = (heap i).season := by
          simpa using List.find?_some hfind
        -- The season that decides has not changed in what it stands for.
        have hdecides : (heap j).Same (heap' j) := by
          by_cases hj : j ∈ target
          · have hwritten := (ih j).1 hj
            rw [meetFirst_map, hsame, hfind] at hwritten
            exact (same_meet_self _).trans hwritten
          · rw [(ih j).2 hj]
            exact .refl _
        rcases hbefore with hbefore | hbefore
        · exact hbefore.meet hdecides
        · exact (same_meet_meet _ _).trans (hbefore.meet hdecides)
    by_cases hr : r = i
    · subst hr
      exact ⟨fun _ => hplace, fun hnot => absurd (by simp) hnot⟩
    · have hother : intersectInPlace source heap' i r = heap' r := by
        rw [intersectInPlace]
        cases source.find? fun j => decide ((heap' j).season = (heap' i).season) with
        | none => rfl
        | some j => exact Function.update_of_ne hr _ _
      rw [hother]
      simpa [hr] using ih r

end SeasonInfo

/-! ## The needed seasons of a round -/

/-- A needed season of a round always lists its episodes. -/
def NeedEntry.toInfo (x : NeedEntry) : SeasonInfo :=
  ⟨some x.season, some x.episodes, some x.totalEpisodes, some x.episodeOffset⟩

/-- What is left of a needed season of a round. -/
theorem NeedEntry.toInfo_intersectEntry (source : List NeedEntry) {x : NeedEntry}
    (hnodup : x.episodes.Nodup) :
    x.toInfo.meetFirst (source.map toInfo) = (intersectEntry source x).toInfo := by
  have hcomp : ((fun f : SeasonInfo => decide (f.season = x.toInfo.season)) ∘ toInfo) =
      fun y : NeedEntry => decide (y.season = x.season) := by
    funext y
    simp [toInfo]
  rw [SeasonInfo.meetFirst, intersectEntry, List.find?_map, hcomp]
  cases source.find? fun y => decide (y.season = x.season) with
  | none => rfl
  | some y =>
    obtain ⟨s, missing, total, offset⟩ := y
    obtain ⟨s', needed, total', offset'⟩ := x
    rcases missing with _ | ⟨e, missing⟩
    · simp [SeasonInfo.meet, toInfo]
    · rcases needed with _ | ⟨e', needed⟩
      · simp [SeasonInfo.meet, toInfo]
      · have hleft := (hnodup.filter (· ∈ e :: missing)).dedup
        simp only [Option.map_some, SeasonInfo.meet, toInfo, reduceCtorEq, or_self, if_false]
        rw [hleft]

end WolfNas
