import WolfNas.Lib.Run
import WolfNas.Series.Service

/-!
# Series keys stay apart

Two entries of one source that are different works should get different series keys.  A
resolution keeps them apart unless it joins the entry, by its title, to a series that another
entry of that source holds for the same season.

## Main definitions

* `KeysApart` — different external ids of one provider and scope, answered for one season,
  were answered with different series keys.
* `JoinsNoOther` — the call is answered from an alias, or joins no series that another entry
  holds.
* `SeriesInv` — the aliases are apart, and every answer is backed by an alias.

## Main results

* `SeriesInv.serve` — a call that joins no other entry's series keeps the invariant.
* `keysApart_run` — in every run of such calls the keys stay apart.
-/

namespace WolfNas

open Text

/-- The call names an entry of a source. -/
def Resolved (c : ResolveCall) : Prop := c.provider.strip ≠ [] ∧ c.externalId.strip ≠ []

instance (c : ResolveCall) : Decidable (Resolved c) :=
  inferInstanceAs (Decidable (_ ∧ _))

/-- Two different external ids of one provider and scope that were answered for the same
season were answered with different series keys. -/
def KeysApart (answers : List (ResolveCall × SeriesResolution)) : Prop :=
  ∀ x ∈ answers, ∀ y ∈ answers, Resolved x.1 → Resolved y.1 →
    x.1.provider.strip = y.1.provider.strip → x.1.scope = y.1.scope →
    x.2.seasonNumber = y.2.seasonNumber → x.1.externalId.strip ≠ y.1.externalId.strip →
    x.2.seriesKey ≠ y.2.seriesKey

instance (answers : List (ResolveCall × SeriesResolution)) : Decidable (KeysApart answers) :=
  inferInstanceAs (Decidable (∀ x ∈ answers, ∀ y ∈ answers, Resolved x.1 → _))

/-- What an alias holds its series key for: one season of one source. -/
def MediaSeriesAlias.slot (a : MediaSeriesAlias) : Text × Text × ℤ :=
  (a.provider, a.scope, a.seasonNumber)

/-- No alias of another entry holds the series key `key` for the season. -/
abbrev HeldByNoOther (st : SeriesStore) (externalId : Text) (slot : Text × Text × ℤ) (key : Text) :
    Prop :=
  Ownership.Free MediaSeriesAlias.externalId MediaSeriesAlias.slot MediaSeriesAlias.seriesKey
    st.aliases externalId slot key

/-- The entry is answered from an alias of its own; or its alias can be recorded, and the
series that its title joins it to, if there is one, is held by no other entry of the source
for that season. -/
def JoinsNoOther (env : SeriesEnv) (st : SeriesStore) (c : ResolveCall) : Prop :=
  (env.findAlias st c).isSome ∨
    (st.aliasFree c.provider.strip c.externalId.strip (SeriesStore.recordedScope c.scope)
        (env.seasonOf c) = true ∧
      ∀ series ∈ env.joined st c, HeldByNoOther st c.externalId.strip
        (c.provider.strip, SeriesStore.recordedScope c.scope, env.seasonOf c) series.seriesKey)

instance (env : SeriesEnv) (st : SeriesStore) (c : ResolveCall) :
    Decidable (JoinsNoOther env st c) := inferInstanceAs (Decidable (_ ∨ (_ ∧ _)))

/-! ## Reading and writing the store -/

theorem lowestSeason_mem {l : List MediaSeriesAlias} {a : MediaSeriesAlias}
    (h : SeriesStore.lowestSeason l = some a) : a ∈ l := by
  induction l generalizing a with
  | nil => simp [SeriesStore.lowestSeason] at h
  | cons b rest ih =>
    cases hrest : SeriesStore.lowestSeason rest with
    | none =>
      simp only [SeriesStore.lowestSeason, hrest, Option.some.injEq] at h
      simp [h]
    | some d =>
      simp only [SeriesStore.lowestSeason, hrest] at h
      split_ifs at h
      · obtain rfl := Option.some.inj h
        exact List.mem_cons_of_mem b (ih hrest)
      · simp [Option.some.inj h]

/-- What `get_alias` finds is an alias of the entry. -/
theorem getAlias_spec {st : SeriesStore} {p e sc : Text} {n : Option ℤ} {a : MediaSeriesAlias}
    (h : st.getAlias p e sc n = some a) :
    a ∈ st.aliases ∧ a.provider = p ∧ a.externalId = e ∧ a.scope = sc := by
  have hmem := List.mem_filter.mp (lowestSeason_mem h)
  simp only [decide_eq_true_eq] at hmem
  exact ⟨hmem.1, hmem.2.1, hmem.2.2.1, hmem.2.2.2.1⟩

/-- The alias that answers a call is one of the call's entry. -/
theorem findAlias_spec {env : SeriesEnv} {st : SeriesStore} {c : ResolveCall}
    {a : MediaSeriesAlias} (h : env.findAlias st c = some a) :
    a ∈ st.aliases ∧ a.provider = c.provider.strip ∧ a.externalId = c.externalId.strip ∧
      a.scope = c.scope := by
  cases hseason : st.getAlias c.provider.strip c.externalId.strip c.scope (some (env.seasonOf c)) with
  | some b =>
    simp only [SeriesEnv.findAlias, hseason, Option.some.injEq] at h
    exact h ▸ getAlias_spec hseason
  | none =>
    simp only [SeriesEnv.findAlias, hseason] at h
    split_ifs at h
    exact getAlias_spec h

theorem chooseSeries_mem {c : ResolveCall} {l : List MediaSeries} {s : MediaSeries}
    (h : SeriesEnv.chooseSeries c l = some s) : s ∈ l := by
  rw [SeriesEnv.chooseSeries] at h
  split at h
  · exact List.mem_of_head? h
  · exact List.mem_of_head? h
  · split at h
    · rename_i hfind
      exact Option.some.inj h ▸ List.mem_of_find?_eq_some hfind
    · exact List.mem_of_head? h

/-- The series a call joins is one of the store's. -/
theorem joined_mem {env : SeriesEnv} {st : SeriesStore} {c : ResolveCall} {s : MediaSeries}
    (h : env.joined st c = some s) : s ∈ st.series :=
  (List.mem_filter.mp (chooseSeries_mem h)).1

@[simp] theorem orSeason_ne_zero (v : Option ℤ) {n : ℤ} (hn : n ≠ 0) : orSeason v n ≠ 0 := by
  rw [orSeason]
  split_ifs with h
  · exact hn
  · exact h

theorem seasonOf_ne_zero (env : SeriesEnv) (c : ResolveCall) : env.seasonOf c ≠ 0 :=
  orSeason_ne_zero _ (orSeason_ne_zero _ (by decide))

theorem recordedScope_ne_nil (scope : Text) : SeriesStore.recordedScope scope ≠ [] := by
  rw [SeriesStore.recordedScope]
  split_ifs with h
  · decide
  · exact h

/-- The alias that a call records. -/
def SeriesEnv.aliasOf (env : SeriesEnv) (c : ResolveCall) (key : Text) (confidence : ℕ) :
    MediaSeriesAlias :=
  ⟨c.provider.strip, c.externalId.strip, SeriesStore.recordedScope c.scope, env.seasonOf c, key,
    confidence⟩

/-- Recording a call whose alias is new adds that alias, and keeps the series. -/
theorem aliases_record {env : SeriesEnv} {st : SeriesStore} {c : ResolveCall} {key : Text}
    {confidence : ℕ}
    (hfree : st.aliasFree c.provider.strip c.externalId.strip (SeriesStore.recordedScope c.scope)
      (env.seasonOf c) = true) :
    (env.record st c key confidence).aliases = st.aliases ++ [env.aliasOf c key confidence] := by
  have hfree' : (st.upsertSeason key (env.seasonOf c) (SeriesEnv.seasonTitle c) c.year
      c.totalEpisodes c.provider.strip c.externalId.strip).aliasFree c.provider.strip
      c.externalId.strip (SeriesStore.recordedScope c.scope) (env.seasonOf c) = true := hfree
  simp only [SeriesEnv.record, SeriesStore.createAlias, if_pos hfree']
  rfl

theorem mem_series_record {env : SeriesEnv} {st : SeriesStore} {c : ResolveCall} {key : Text}
    {confidence : ℕ} {k : Text} (h : ∃ s ∈ st.series, s.seriesKey = k) :
    ∃ s ∈ (env.record st c key confidence).series, s.seriesKey = k := by
  obtain ⟨s, hs, rfl⟩ := h
  have hup : ∃ t ∈ (st.upsertSeason key (env.seasonOf c) (SeriesEnv.seasonTitle c) c.year
      c.totalEpisodes c.provider.strip c.externalId.strip).series, t.seriesKey = s.seriesKey := by
    refine ⟨_, List.mem_map_of_mem hs, ?_⟩
    split_ifs <;> rfl
  simp only [SeriesEnv.record, SeriesStore.createAlias]
  split_ifs <;> exact hup

/-! ## What a resolution can do -/

/-- A resolution is answered from an alias and changes nothing; or it is recorded for a
series, which is the one its title joins it to or a new one. -/
theorem resolve_cases {env : SeriesEnv} {st st' : SeriesStore} {c : ResolveCall}
    {r : SeriesResolution} (hc : Resolved c) (h : env.resolve st c = .ok (st', r)) :
    (∃ a, env.findAlias st c = some a ∧ st' = st ∧ r.seriesKey = a.seriesKey ∧
        r.seasonNumber = orSeason (some a.seasonNumber) 1) ∨
      (env.findAlias st c = none ∧ ∃ st₀ confidence,
        st' = env.record st₀ c r.seriesKey confidence ∧ st₀.aliases = st.aliases ∧
        (∀ s ∈ st.series, s ∈ st₀.series) ∧ (∃ s ∈ st₀.series, s.seriesKey = r.seriesKey) ∧
        r.seasonNumber = env.seasonOf c ∧
        ((∃ s, env.joined st c = some s ∧ s.seriesKey = r.seriesKey) ∨
          ∀ s ∈ st.series, s.seriesKey ≠ r.seriesKey)) := by
  have hblank : ¬(c.provider.strip = [] ∨ c.externalId.strip = []) := not_or.mpr hc
  simp only [SeriesEnv.resolve, if_neg hblank] at h
  cases halias : env.findAlias st c with
  | some a =>
    simp only [halias, Except.ok.injEq, Prod.mk.injEq] at h
    obtain ⟨rfl, rfl⟩ := h
    exact Or.inl ⟨a, rfl, rfl, rfl, rfl⟩
  | none =>
    refine Or.inr ⟨rfl, ?_⟩
    cases hjoin : env.joined st c with
    | some s =>
      simp only [halias, hjoin, Except.ok.injEq, Prod.mk.injEq] at h
      obtain ⟨rfl, rfl⟩ := h
      exact ⟨st, 70, rfl, rfl, fun _ ht => ht, ⟨s, joined_mem hjoin, rfl⟩, rfl,
        Or.inl ⟨s, rfl, rfl⟩⟩
    | none =>
      simp only [halias, hjoin, SeriesStore.createSeries] at h
      split_ifs at h with htaken
      · simp [bind, Except.bind] at h
      · simp only [bind, Except.bind, pure, Except.pure, Except.ok.injEq, Prod.mk.injEq] at h
        obtain ⟨rfl, rfl⟩ := h
        refine ⟨_, 50, rfl, rfl, fun t ht => List.mem_append_left _ ht,
          ⟨_, List.mem_append_right _ (List.mem_singleton_self _), rfl⟩, rfl, Or.inr ?_⟩
        simpa using htaken

/-! ## The invariant -/

/-- The aliases are apart and name series of the store, and every answer that was given is
backed by an alias. -/
structure SeriesInv (s : SeriesEnv.Session) : Prop where
  apart : Ownership.Apart MediaSeriesAlias.externalId MediaSeriesAlias.slot
    MediaSeriesAlias.seriesKey s.store.aliases
  known : ∀ a ∈ s.store.aliases, ∃ row ∈ s.store.series, row.seriesKey = a.seriesKey
  scopeFilled : ∀ a ∈ s.store.aliases, a.scope ≠ []
  numbered : ∀ a ∈ s.store.aliases, a.seasonNumber ≠ 0
  backed : ∀ x ∈ s.answers, Resolved x.1 → ∃ a ∈ s.store.aliases,
    a.externalId = x.1.externalId.strip ∧
      a.slot = (x.1.provider.strip, SeriesStore.recordedScope x.1.scope, x.2.seasonNumber) ∧
      a.seriesKey = x.2.seriesKey

theorem SeriesInv.empty : SeriesInv ⟨{}, []⟩ where
  apart := Ownership.apart_nil _ _ _
  known := by simp
  scopeFilled := by simp
  numbered := by simp
  backed := by simp

/-- Under the invariant the answers given so far are apart. -/
theorem SeriesInv.keysApart {s : SeriesEnv.Session} (h : SeriesInv s) : KeysApart s.answers := by
  intro x hx y hy hrx hry hprov hscope hseason hne hkey
  obtain ⟨a, ha, haOwner, haSlot, haKey⟩ := h.backed x hx hrx
  obtain ⟨b, hb, hbOwner, hbSlot, hbKey⟩ := h.backed y hy hry
  have hslot : a.slot = b.slot := by rw [haSlot, hbSlot, hprov, hscope, hseason]
  have howner := h.apart a ha b hb hslot (by rw [haKey, hbKey, hkey])
  exact hne (by rw [← haOwner, ← hbOwner, howner])

/-- **One resolution**: a call that joins no series of another entry keeps the invariant. -/
theorem SeriesInv.serve {env : SeriesEnv} {s : SeriesEnv.Session} (h : SeriesInv s)
    {c : ResolveCall} (hc : JoinsNoOther env s.store c) : SeriesInv (env.serve s c) := by
  by_cases hres : Resolved c
  swap
  · -- A call without an entry is answered without a series key and changes nothing.
    have hblank : c.provider.strip = [] ∨ c.externalId.strip = [] := by
      by_contra hne
      exact hres (not_or.mp hne)
    simp only [SeriesEnv.serve, SeriesEnv.resolve, if_pos hblank]
    refine ⟨h.apart, h.known, h.scopeFilled, h.numbered, ?_⟩
    intro x hx hrx
    rcases List.mem_append.mp hx with hx | hx
    · exact h.backed x hx hrx
    · rw [List.mem_singleton.mp hx] at hrx
      exact absurd hrx hres
  cases hr : env.resolve s.store c with
  | error e => simpa only [SeriesEnv.serve, hr] using h
  | ok result =>
    obtain ⟨st', r⟩ := result
    simp only [SeriesEnv.serve, hr]
    rcases resolve_cases hres hr with ⟨a, halias, rfl, hkey, hseason⟩ |
      ⟨halias, st₀, confidence, rfl, haliases, hkeep, hknown, hseason, horigin⟩
    · -- Answered from an alias, which backs the new answer.
      refine ⟨h.apart, h.known, h.scopeFilled, h.numbered, ?_⟩
      intro x hx hrx
      rcases List.mem_append.mp hx with hx | hx
      · exact h.backed x hx hrx
      · obtain ⟨ha, hp, he, hs⟩ := findAlias_spec halias
        rw [List.mem_singleton.mp hx]
        have hscope : SeriesStore.recordedScope c.scope = a.scope := by
          rw [SeriesStore.recordedScope, ← hs, if_neg (h.scopeFilled a ha)]
        have hnumber : r.seasonNumber = a.seasonNumber := by
          rw [hseason, orSeason]
          simp [h.numbered a ha]
        refine ⟨a, ha, he, ?_, hkey.symm⟩
        rw [MediaSeriesAlias.slot, hp, hscope, hnumber]
    · -- Recorded: the new alias holds a key that is free in its slot.
      obtain ⟨hfree, hother⟩ := hc.resolve_left (by simp [halias])
      have hrecord : (env.record st₀ c r.seriesKey confidence).aliases =
          s.store.aliases ++ [env.aliasOf c r.seriesKey confidence] := by
        rw [← haliases]
        refine aliases_record ?_
        rw [SeriesStore.aliasFree, haliases]
        exact hfree
      have hheld : HeldByNoOther s.store c.externalId.strip
          (c.provider.strip, SeriesStore.recordedScope c.scope, env.seasonOf c) r.seriesKey := by
        rcases horigin with ⟨series, hjoin, hk⟩ | hfresh
        · exact hk ▸ hother series hjoin
        · refine Ownership.free_of_fresh _ _ _ fun a ha hk => ?_
          obtain ⟨row, hrow, hrowKey⟩ := h.known a ha
          exact hfresh row hrow (hrowKey.trans hk)
      have hnew : ∀ a ∈ s.store.aliases ++ [env.aliasOf c r.seriesKey confidence],
          a ∈ s.store.aliases ∨ a = env.aliasOf c r.seriesKey confidence := by
        intro a ha
        simpa using ha
      constructor
      · rw [hrecord]
        exact Ownership.apart_concat _ _ _ h.apart hheld
      · intro a ha
        rw [hrecord] at ha
        rcases hnew a ha with ha | rfl
        · obtain ⟨row, hrow, hk⟩ := h.known a ha
          exact mem_series_record ⟨row, hkeep row hrow, hk⟩
        · exact mem_series_record hknown
      · intro a ha
        rw [hrecord] at ha
        rcases hnew a ha with ha | rfl
        · exact h.scopeFilled a ha
        · exact recordedScope_ne_nil c.scope
      · intro a ha
        rw [hrecord] at ha
        rcases hnew a ha with ha | rfl
        · exact h.numbered a ha
        · exact seasonOf_ne_zero env c
      · intro x hx hrx
        rw [hrecord]
        rcases List.mem_append.mp hx with hx | hx
        · obtain ⟨a, ha, hspec⟩ := h.backed x hx hrx
          exact ⟨a, List.mem_append_left _ ha, hspec⟩
        · rw [List.mem_singleton.mp hx]
          refine ⟨_, List.mem_append_right _ (List.mem_singleton_self _), rfl, ?_, rfl⟩
          rw [hseason]
          rfl

/-- **Runs of resolutions**: from the empty store, in every run whose calls join no series
of another entry, two different external ids of one provider and scope that were answered
for the same season hold different series keys, after every one of its calls. -/
theorem keysApart_run (env : SeriesEnv) (calls : List ResolveCall)
    (h : Run.Along env.serve (fun s c => JoinsNoOther env s.store c) ⟨{}, []⟩ calls) (n : ℕ) :
    KeysApart (env.run ⟨{}, []⟩ (calls.take n)).answers :=
  (Run.invariant_along SeriesInv SeriesInv.empty (h.take n) fun _ _ hs hc => hs.serve hc).keysApart

/-- Titles that name no season. -/
def plainTitles : SeriesEnv := ⟨fun title => (title, none)⟩

/-- A TMDB entry as it is resolved for its first season. -/
def tmdbCall (externalId title year uuid : String) : ResolveCall where
  provider := of "tmdb"
  externalId := of externalId
  title := of title
  year := some (of year)
  seasonNumber := some 1
  uuid := of uuid

/-- Two shows of different titles keep their keys apart. -/
theorem different_titles_apart :
    KeysApart (plainTitles.run ⟨{}, []⟩
      ([tmdbCall "1" "Battlestar" "1978" "a1", tmdbCall "2" "Andromeda" "2000" "b2"].take 2)).answers :=
  keysApart_run plainTitles
    [tmdbCall "1" "Battlestar" "1978" "a1", tmdbCall "2" "Andromeda" "2000" "b2"]
    ⟨by decide, by decide, trivial⟩ 2

/-- Two shows of one title, of different years, are given the same series key. -/
theorem same_title_joined :
    ¬KeysApart (plainTitles.run ⟨{}, []⟩
      [tmdbCall "1" "Battlestar" "1978" "a1", tmdbCall "2" "Battlestar" "2004" "b2"]).answers := by
  decide

end WolfNas
