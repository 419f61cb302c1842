import WolfNas.Lib.SortedSet
import WolfNas.Subscribe.Lookup
import WolfNas.Subscribe.States

/-!
# Spellings of a season in the queries

The subscription tables and those who query them spell the season `1` as `1`, `01`, `S1` or `S01`.
Some queries ask for all spellings of the season that they are given, and some for that one only.
What a query would do if there were only one spelling is what it does on the table in which every
season is spelled plainly.

## Main definitions

* `seasonSpellings`, `SeasonSpelling` — the spellings of a season, and one of them.
* `plainSeason`, `SeasonTables.plain` — the season, and the tables, spelled plainly.
* `SeasonOp`, `SeasonOp.selected` — the operations on a season, and the rows they select.

## Main results

* `seasonFilter_plainSeason` — all spellings are one to `_season_filter`.
* `SeasonOp.selected_plain_iff` — when all spellings are one to an operation.
-/

namespace WolfNas

open Text

/-! ## Spellings -/

/-- The spellings of a season. -/
def seasonSpellings (n : ℕ) : List Text := [ofNat n, pad2 n, 'S' :: ofNat n, 'S' :: pad2 n]

/-- The number of a season, whatever its spelling. -/
def seasonNumber (s : Text) : ℕ := toNat (seasonDigits s)

/-- The season in the first spelling.  What is no spelling of a season is left alone. -/
def plainSeason (s : Text) : Text :=
  if s ∈ seasonSpellings (seasonNumber s) then ofNat (seasonNumber s) else s

section Spellings

variable {n : ℕ} {s text : Text}

theorem ofNat_mem_seasonSpellings (n : ℕ) : ofNat n ∈ seasonSpellings n := List.mem_cons_self

/-- A spelling is made of the digits, and perhaps of the letter in front of them. -/
theorem exists_padTo_of_mem (h : s ∈ seasonSpellings n) :
    ∃ width, seasonDigits s = padTo width n ∧ (s = padTo width n ∨ s = 'S' :: padTo width n) := by
  have hdigits : ∀ width, seasonDigits (padTo width n) = padTo width n := by
    intro width
    cases htext : padTo width n with
    | nil => rfl
    | cons c rest =>
      have hc : c.isDigit = true := isDigit_of_mem_padTo (htext ▸ List.mem_cons_self)
      unfold seasonDigits
      split
      · rename_i heq
        cases heq
        cases hc
      · rename_i heq
        cases heq
        cases hc
      · rfl
  simp only [seasonSpellings, ← padTo_zero, pad2_eq, List.mem_cons, List.not_mem_nil, or_false] at h
  rcases h with rfl | rfl | rfl | rfl
  · exact ⟨0, hdigits 0, .inl rfl⟩
  · exact ⟨2, hdigits 2, .inl rfl⟩
  · exact ⟨0, rfl, .inr rfl⟩
  · exact ⟨2, rfl, .inr rfl⟩

theorem seasonNumber_of_mem (h : s ∈ seasonSpellings n) : seasonNumber s = n := by
  obtain ⟨width, hdigits, -⟩ := exists_padTo_of_mem h
  rw [seasonNumber, hdigits, toNat_padTo]

theorem ofNat_mem_seasonSpellings_iff {m : ℕ} : ofNat m ∈ seasonSpellings n ↔ m = n := by
  constructor
  · intro h
    exact (seasonNumber_of_mem (ofNat_mem_seasonSpellings m)).symm.trans (seasonNumber_of_mem h)
  · intro h
    subst h
    exact ofNat_mem_seasonSpellings m

/-- What is a spelling of a season stays one, and nothing else becomes one. -/
theorem plainSeason_mem_iff : plainSeason s ∈ seasonSpellings n ↔ s ∈ seasonSpellings n := by
  unfold plainSeason
  split_ifs with hspelled
  · rw [ofNat_mem_seasonSpellings_iff]
    constructor
    · intro h
      exact h ▸ hspelled
    · exact seasonNumber_of_mem
  · exact Iff.rfl

/-- The plain spelling is that of all spellings. -/
theorem plainSeason_eq_iff : plainSeason s = ofNat n ↔ s ∈ seasonSpellings n := by
  constructor
  · intro h
    rw [← plainSeason_mem_iff, h]
    exact ofNat_mem_seasonSpellings n
  · intro h
    rw [plainSeason, seasonNumber_of_mem h, if_pos h]

/-- The variants of a spelling are all of them. -/
theorem mem_seasonVariants_iff (htext : text ∈ seasonSpellings n) :
    s ∈ seasonVariants text ↔ s ∈ seasonSpellings n := by
  obtain ⟨width, hdigits, hraw⟩ := exists_padTo_of_mem htext
  have htrimmed : text.strip = text := by
    refine strip_of_trimmed (trimmed_of_forall fun c hc => ?_)
    have hdigit : ∀ c ∈ padTo width n, isSpace c = false := fun _ hc =>
      isSpace_of_isDigit (isDigit_of_mem_padTo hc)
    rcases hraw with rfl | rfl
    · exact hdigit c hc
    · rcases List.mem_cons.mp hc with rfl | hc
      · rfl
      · exact hdigit c hc
  have hne : text ≠ [] := by
    rcases hraw with rfl | rfl
    · exact padTo_ne_nil width n
    · exact List.cons_ne_nil _ _
  have hvariants : seasonVariants text = text :: seasonSpellings n := by
    simp only [seasonVariants, htrimmed, hne, hdigits, isDigit_padTo, toNat_padTo, if_true,
      if_false]
    rfl
  rw [hvariants, List.mem_cons]
  constructor
  · rintro (rfl | h)
    · exact htext
    · exact h
  · exact .inr

theorem seasonVariants_ne_nil (htext : text ∈ seasonSpellings n) : seasonVariants text ≠ [] :=
  List.ne_nil_of_mem ((mem_seasonVariants_iff htext).mpr htext)

/-- **All spellings are one** to `_season_filter`. -/
theorem seasonFilter_plainSeason (htext : text ∈ seasonSpellings n) :
    seasonFilter (plainSeason s) (ofNat n) = seasonFilter s text := by
  have hplain := ofNat_mem_seasonSpellings n
  rw [Bool.eq_iff_iff]
  simp only [seasonFilter, seasonVariants_ne_nil hplain, seasonVariants_ne_nil htext,
    mem_seasonVariants_iff hplain, mem_seasonVariants_iff htext, plainSeason_mem_iff]

end Spellings

/-- A season as a query spells it. -/
structure SeasonSpelling where
  number : ℕ
  text : Text
  mem : text ∈ seasonSpellings number

theorem SeasonSpelling.text_ne_nil (q : SeasonSpelling) : q.text ≠ [] := by
  obtain ⟨width, -, hraw⟩ := exists_padTo_of_mem q.mem
  rcases hraw with hraw | hraw
  · exact hraw ▸ padTo_ne_nil width q.number
  · exact hraw ▸ List.cons_ne_nil _ _

/-- The season, spelled plainly. -/
def SeasonSpelling.plain (q : SeasonSpelling) : SeasonSpelling where
  number := q.number
  text := ofNat q.number
  mem := ofNat_mem_seasonSpellings q.number

/-! ## The tables -/

/-- The row, with its season spelled plainly. -/
def Subscription.plain (sub : Subscription) : Subscription :=
  { sub with season := plainSeason sub.season }

/-- The row, with its season spelled plainly. -/
def StateRow.plain (row : StateRow) : StateRow := { row with season := row.season.map plainSeason }

/-- The tables, with the seasons spelled plainly. -/
def SubscriptionEnv.plain (env : SubscriptionEnv) : SubscriptionEnv :=
  { env with
    tvs := env.tvs.map Subscription.plain
    nodup := by simpa [Function.comp_def, Subscription.plain] using env.nodup }

/-- The TV table, as those who look for subscriptions and as those who write states read it. -/
structure SeasonTables where
  env : SubscriptionEnv
  states : List StateRow

/-- The tables, with the seasons spelled plainly. -/
def SeasonTables.plain (tables : SeasonTables) : SeasonTables where
  env := tables.env.plain
  states := tables.states.map StateRow.plain

/-! ## The operations -/

/-- The rows of the first statement of `update_rss_tv_state`. -/
def StateRow.inAnySpelling (title year : Text) (season : Option Text) (row : StateRow) : Bool :=
  row.isTitle title year && row.inSeason season

/-- The rows of its second statement. -/
def StateRow.inOneSpelling (title year : Text) (season : Option Text) (row : StateRow) : Bool :=
  row.isTitle title year && row.season = season

/-- An operation on the subscriptions of a season. -/
inductive SeasonOp
  /-- `get_rss_tv_id`. -/
  | lookup (ask : SubscriptionLookup)
  /-- `get_rss_tv_id_by_anchor`. -/
  | anchor (r : HistoryRecord)
  /-- `update_rss_tv_state`, by the title. -/
  | titleState (title year : Text)
  /-- `TRANSFER_FAIL`, which reads the season in the record of the download. -/
  | transferFailed (h : HistoryRecord)

namespace SeasonOp

/-- The ids of the rows that each statement of an operation selects. -/
def selected (tables : SeasonTables) (season : Text) : SeasonOp → List (List ℕ)
  | lookup ask =>
    [(SubscriptionLookup.getRssTvId tables.env { ask with season }).toList.map fun sub => sub.id]
  | anchor r => [(tables.env.idByAnchor r season).toList]
  | titleState title year =>
    [(tables.states.filter (StateRow.inAnySpelling title year season)).map StateRow.id,
      (tables.states.filter (StateRow.inOneSpelling title year season)).map StateRow.id]
  | transferFailed h =>
    [(tables.env.tvs.filter fun sub =>
      (tables.env.onTv .transferFailed { event := some h } sub).isSome).map fun sub => sub.id]

/-- The row has the anchor of the record, and is one of its user and of its profile. -/
def hasAnchor (r : HistoryRecord) (sub : Subscription) : Prop :=
  orEmpty sub.anchorProvider = r.anchorProvider.strip ∧
    sub.external = r.anchorExternalId.strip ∧ userFilter r sub ∧
      profileFilter sub.contentProfile r.contentProfile

/-- The condition: the row that is to be selected has the spelling that the operation compares
with. -/
def Spelled (tables : SeasonTables) (q : SeasonSpelling) : SeasonOp → Prop
  | lookup _ => True
  | anchor r =>
    r.anchorProvider.strip = [] ∨ r.anchorExternalId.strip = [] ∨
      ∀ sub ∈ tables.env.tvs, hasAnchor r sub ∧ sub.season ∈ seasonSpellings q.number →
        (∀ sub' ∈ tables.env.tvs,
          hasAnchor r sub' ∧ sub'.season ∈ seasonSpellings q.number → sub'.id ≤ sub.id) →
        sub.season = q.text
  | titleState title year =>
    ∀ row ∈ tables.states, row.isTitle title year →
      ∀ season ∈ row.season, season ∈ seasonSpellings q.number → season = q.text
  | transferFailed h =>
    failTold h → ∀ n ∈ (tables.env.failedEpisodes h).1, ∀ sub ∈ tables.env.tvs,
      failMatchedTv h sub → ownedBy h sub → sub.season ∈ seasonSpellings n → sub.season = ofNat n

/-! ## When the spellings are one -/

section Plain

variable {rows : List Subscription} {p p' : Subscription → Bool}

/-- To pick rows of the table with the plain seasons is to pick them of the table as it is. -/
theorem filter_map_plain (h : ∀ sub : Subscription, p' sub.plain = p sub) :
    (rows.map Subscription.plain).filter p' = (rows.filter p).map Subscription.plain := by
  have hcomp : p' ∘ Subscription.plain = p := funext h
  rw [List.filter_map, hcomp]

theorem find?_map_plain (h : ∀ sub : Subscription, p' sub.plain = p sub) :
    (rows.map Subscription.plain).find? p' = (rows.find? p).map Subscription.plain := by
  have hcomp : p' ∘ Subscription.plain = p := funext h
  rw [List.find?_map, hcomp]

end Plain

/-- The lookup by a like title goes through the same rows. -/
theorem fuzzyCandidates_plain (env : SubscriptionEnv) (ask : SubscriptionLookup)
    (q : SeasonSpelling) (rows : List Subscription) :
    { ask with season := q.plain.text }.fuzzyCandidates env.plain (rows.map Subscription.plain) =
      ({ ask with season := q.text }.fuzzyCandidates env rows).map Subscription.plain := by
  have hrows : (rows.map Subscription.plain).filter
      (fun sub => q.plain.text = [] ∨ seasonFilter sub.season q.plain.text) =
      (rows.filter fun sub => q.text = [] ∨ seasonFilter sub.season q.text).map
        Subscription.plain := by
    refine filter_map_plain fun sub => ?_
    have hseason : seasonFilter sub.plain.season q.plain.text = seasonFilter sub.season q.text :=
      seasonFilter_plainSeason q.mem
    simp [hseason, q.text_ne_nil, q.plain.text_ne_nil]
  simp only [SubscriptionLookup.fuzzyCandidates, hrows, List.map_append]
  congr 2
  · exact filter_map_plain fun _ => rfl
  · exact filter_map_plain fun _ => rfl
  · exact filter_map_plain fun _ => rfl

/-- A lookup by the title finds the same row. -/
theorem getRssTvId_plain (env : SubscriptionEnv) (ask : SubscriptionLookup) (q : SeasonSpelling) :
    SubscriptionLookup.getRssTvId env.plain { ask with season := q.plain.text } =
      (SubscriptionLookup.getRssTvId env { ask with season := q.text }).map Subscription.plain := by
  have hseason : ∀ sub : Subscription,
      seasonFilter sub.plain.season q.plain.text = seasonFilter sub.season q.text := fun _ =>
    seasonFilter_plainSeason q.mem
  have htmdb : { ask with season := q.plain.text }.byTmdb (env.tvs.map Subscription.plain) =
      ({ ask with season := q.text }.byTmdb env.tvs).map Subscription.plain := by
    unfold SubscriptionLookup.byTmdb
    split_ifs
    · rfl
    · refine find?_map_plain fun sub => ?_
      rw [hseason]
      rfl
  have htitle : { ask with season := q.plain.text }.byTitle (env.tvs.map Subscription.plain) =
      ({ ask with season := q.text }.byTitle env.tvs).map Subscription.plain := by
    refine find?_map_plain fun sub => ?_
    rw [hseason]
    rfl
  have hfuzzy : { ask with season := q.plain.text }.fuzzySubscribeId env.plain
      (env.tvs.map Subscription.plain) =
      ({ ask with season := q.text }.fuzzySubscribeId env env.tvs).map Subscription.plain := by
    have hbase : ∀ season,
        SubscriptionLookup.baseTitle { ask with season } = ask.baseTitle := fun _ => rfl
    simp only [SubscriptionLookup.fuzzySubscribeId, hbase, fuzzyCandidates_plain, List.head?_map]
    split_ifs
    · rfl
    · rfl
  simp only [SubscriptionLookup.getRssTvId, SubscriptionLookup.cascade,
    SubscriptionLookup.scopedHit]
  split_ifs
  · rfl
  · rw [Option.map_or, Option.map_or, ← htmdb, ← htitle, ← hfuzzy]
    rfl

instance (r : HistoryRecord) : DecidablePred (hasAnchor r) := fun _ =>
  inferInstanceAs (Decidable (_ ∧ _))

/-- The rows among which a lookup by the anchor takes the newest. -/
theorem idByAnchor_eq (env : SubscriptionEnv) (r : HistoryRecord) {season : Text}
    (hseason : season ≠ []) :
    env.idByAnchor r season =
      if r.anchorProvider.strip = [] ∨ r.anchorExternalId.strip = [] then none
      else ((env.tvs.filter fun sub => hasAnchor r sub ∧ sub.season = season).map
        fun sub => sub.id).max? := by
  simp only [SubscriptionEnv.idByAnchor, hseason, false_or]
  refine if_congr Iff.rfl rfl ?_
  congr 3
  funext sub
  rw [decide_eq_decide, hasAnchor]
  tauto

/-- When a lookup by the anchor finds the same row. -/
theorem idByAnchor_plain_iff (tables : SeasonTables) (r : HistoryRecord) (q : SeasonSpelling) :
    tables.env.idByAnchor r q.text = tables.env.plain.idByAnchor r q.plain.text ↔
      (anchor r).Spelled tables q := by
  rw [idByAnchor_eq tables.env r q.text_ne_nil,
    idByAnchor_eq tables.env.plain r q.plain.text_ne_nil]
  have hrows : (tables.env.plain.tvs.filter fun sub =>
      hasAnchor r sub ∧ sub.season = q.plain.text).map (fun sub => sub.id) =
      (tables.env.tvs.filter fun sub =>
        hasAnchor r sub ∧ sub.season ∈ seasonSpellings q.number).map fun sub => sub.id := by
    have hfilter : ((tables.env.tvs.map Subscription.plain).filter fun sub =>
        decide (hasAnchor r sub ∧ sub.season = q.plain.text)) =
        (tables.env.tvs.filter fun sub =>
          hasAnchor r sub ∧ sub.season ∈ seasonSpellings q.number).map Subscription.plain := by
      refine filter_map_plain fun sub => ?_
      rw [decide_eq_decide]
      exact and_congr Iff.rfl plainSeason_eq_iff
    rw [SubscriptionEnv.plain, hfilter, List.map_map]
    rfl
  have hinj : ∀ sub ∈ tables.env.tvs, ∀ sub' ∈ tables.env.tvs, sub.id = sub'.id → sub = sub' :=
    List.inj_on_of_nodup_map tables.env.nodup
  have hnarrow : ∀ sub ∈ tables.env.tvs, decide (hasAnchor r sub ∧ sub.season = q.text) →
      decide (hasAnchor r sub ∧ sub.season ∈ seasonSpellings q.number) := by
    intro sub _ h
    rw [decide_eq_true_eq] at h ⊢
    exact ⟨h.1, h.2 ▸ q.mem⟩
  rw [hrows, Spelled]
  split_ifs with hblank
  · exact iff_of_true rfl (hblank.imp_right .inl)
  · rw [List.max?_filter_eq_iff hinj hnarrow]
    push Not at hblank
    simp only [hblank.1, hblank.2, false_or, decide_eq_true_eq]
    refine forall₄_congr fun sub _ hsub _ => ?_
    exact and_iff_right hsub.1

/-- The first statement about a title has all spellings. -/
theorem inSeason_iff (row : StateRow) {n : ℕ} {text : Text} (htext : text ∈ seasonSpellings n) :
    row.inSeason (some text) ↔ ∃ season ∈ row.season, season ∈ seasonSpellings n := by
  simp [StateRow.inSeason, orEmpty, seasonVariants_ne_nil htext, mem_seasonVariants_iff htext,
    Option.any_eq_true]

/-- When the two statements about a title select the same rows. -/
theorem titleState_plain_iff (tables : SeasonTables) (title year : Text) (q : SeasonSpelling) :
    (titleState title year).selected tables q.text =
        (titleState title year).selected tables.plain q.plain.text ↔
      (titleState title year).Spelled tables q := by
  have hany : ∀ row : StateRow, row.plain.inAnySpelling title year (some q.plain.text) =
      row.inAnySpelling title year (some q.text) := by
    intro row
    have hseason : row.plain.inSeason (some q.plain.text) = row.inSeason (some q.text) := by
      rw [Bool.eq_iff_iff, inSeason_iff row.plain q.plain.mem, inSeason_iff row q.mem]
      simp [StateRow.plain, SeasonSpelling.plain, plainSeason_mem_iff]
    rw [StateRow.inAnySpelling, hseason]
    rfl
  have hone : ∀ row : StateRow, row.plain.inOneSpelling title year (some q.plain.text) ↔
      row.isTitle title year ∧ ∃ season ∈ row.season, season ∈ seasonSpellings q.number := by
    intro row
    have hseason : row.plain.season = some q.plain.text ↔
        ∃ season ∈ row.season, season ∈ seasonSpellings q.number := by
      simp [StateRow.plain, SeasonSpelling.plain, plainSeason_eq_iff]
    have htitle : row.plain.isTitle title year = row.isTitle title year := rfl
    rw [StateRow.inOneSpelling, Bool.and_eq_true, decide_eq_true_eq, hseason, htitle]
  simp only [selected, SeasonTables.plain, List.filter_map, List.map_map]
  have hid : StateRow.id ∘ StateRow.plain = StateRow.id := rfl
  have hany' : StateRow.inAnySpelling title year (some q.plain.text) ∘ StateRow.plain =
      StateRow.inAnySpelling title year (some q.text) := funext hany
  rw [hid, hany', List.cons.injEq, List.cons.injEq, and_iff_right rfl, and_iff_left rfl,
    List.map_filter_eq_map_filter_iff]
  · refine forall₂_congr fun row _ => ?_
    rw [Function.comp_apply, hone]
    cases hseason : row.season with
    | none => simp
    | some season =>
      simp only [StateRow.inOneSpelling, hseason, Option.mem_some_iff, exists_eq_left', and_imp,
        Bool.and_eq_true, decide_eq_true_eq, Option.some.injEq, forall_eq']
      exact forall₂_congr fun htitle _ => and_iff_right htitle
  · intro row _ hrow
    rw [StateRow.inOneSpelling, Bool.and_eq_true, decide_eq_true_eq] at hrow
    rw [Function.comp_apply, hone]
    exact ⟨hrow.1, q.text, hrow.2, q.mem⟩

/-- What a failed transfer is taken for, when it is about a season. -/
theorem onTv_transferFailed_isSome_iff (env : SubscriptionEnv) (h : HistoryRecord)
    (sub : Subscription) :
    (env.onTv .transferFailed { event := some h } sub).isSome ↔
      failTold h ∧ failMatchedTv h sub ∧ ownedBy h sub ∧
        ∀ n ∈ (env.failedEpisodes h).1, sub.season = ofNat n := by
  have hseason : env.failedSeason h sub ↔ ∀ n ∈ (env.failedEpisodes h).1, sub.season = ofNat n := by
    unfold SubscriptionEnv.failedSeason
    cases (env.failedEpisodes h).1 <;> simp
  have hsome : (env.onTv .transferFailed { event := some h } sub).isSome ↔
      failTold h ∧ failMatchedTv h sub ∧ env.failedSeason h sub ∧ ownedBy h sub := by
    simp only [SubscriptionEnv.onTv]
    split_ifs with hcond
    · exact iff_of_true rfl hcond
    · exact iff_of_false Bool.false_ne_true hcond
  rw [hsome, hseason, and_comm (b := (ownedBy h sub : Prop))]

/-- When a failed transfer opens the same subscriptions again. -/
theorem transferFailed_plain_iff (tables : SeasonTables) (h : HistoryRecord) (q : SeasonSpelling) :
    (transferFailed h).selected tables q.text =
        (transferFailed h).selected tables.plain q.plain.text ↔
      (transferFailed h).Spelled tables q := by
  have hplain : ∀ sub : Subscription,
      (tables.env.plain.onTv .transferFailed { event := some h } sub.plain).isSome ↔
        failTold h ∧ failMatchedTv h sub ∧ ownedBy h sub ∧
          ∀ n ∈ (tables.env.failedEpisodes h).1, sub.season ∈ seasonSpellings n := by
    intro sub
    rw [onTv_transferFailed_isSome_iff]
    refine and_congr Iff.rfl (and_congr Iff.rfl (and_congr Iff.rfl ?_))
    exact forall₂_congr fun n _ => plainSeason_eq_iff
  have hrows : (tables.env.plain.tvs.filter fun sub =>
      (tables.env.plain.onTv .transferFailed { event := some h } sub).isSome).map
        (fun sub => sub.id) =
      (tables.env.tvs.filter fun sub =>
        (tables.env.plain.onTv .transferFailed { event := some h } sub.plain).isSome).map
        fun sub => sub.id := by
    rw [SubscriptionEnv.plain, List.filter_map, List.map_map]
    rfl
  have hnarrow : ∀ sub ∈ tables.env.tvs,
      (tables.env.onTv .transferFailed { event := some h } sub).isSome →
        (tables.env.plain.onTv .transferFailed { event := some h } sub.plain).isSome := by
    intro sub _ hsub
    rw [onTv_transferFailed_isSome_iff] at hsub
    rw [hplain]
    refine ⟨hsub.1, hsub.2.1, hsub.2.2.1, fun n hn => ?_⟩
    rw [hsub.2.2.2 n hn]
    exact ofNat_mem_seasonSpellings n
  simp only [selected, SeasonTables.plain, hrows, List.cons.injEq, and_true,
    List.map_filter_eq_map_filter_iff _ hnarrow, hplain, onTv_transferFailed_isSome_iff, Spelled]
  constructor
  · intro hsame htold n hn sub hsub hmatched howned hspelled
    refine (hsame sub hsub ⟨htold, hmatched, howned, ?_⟩).2.2.2 n hn
    intro m hm
    exact Option.mem_unique hm hn ▸ hspelled
  · intro hspelled sub hsub hplain
    refine ⟨hplain.1, hplain.2.1, hplain.2.2.1, fun n hn => ?_⟩
    exact hspelled hplain.1 n hn sub hsub hplain.2.1 hplain.2.2.1 (hplain.2.2.2 n hn)

/-- **All spellings are one to an operation**, exactly if the row that is to be selected has the
spelling that the operation compares with.  A lookup by the title compares with all of them. -/
theorem selected_plain_iff (op : SeasonOp) (tables : SeasonTables) (q : SeasonSpelling) :
    op.selected tables q.text = op.selected tables.plain q.plain.text ↔ op.Spelled tables q := by
  cases op with
  | lookup ask =>
    refine iff_of_true ?_ trivial
    simp only [selected, SeasonTables.plain, getRssTvId_plain]
    cases SubscriptionLookup.getRssTvId tables.env { ask with season := q.text } <;> rfl
  | anchor r =>
    refine Iff.trans ?_ (idByAnchor_plain_iff tables r q)
    simp only [selected, SeasonTables.plain, List.cons.injEq, and_true]
    constructor
    · intro hsame
      simpa using congrArg List.head? hsame
    · exact congrArg Option.toList
  | titleState title year => exact titleState_plain_iff tables title year q
  | transferFailed h => exact transferFailed_plain_iff tables h q

/-- A subscription of the first season, as it is stored. -/
def storedSeason : Subscription where
  id := 1
  name := of "Show"
  season := of "S01"
  anchorProvider := some (of "bangumi")
  anchorExternalId := some (of "42")

/-- A TV table with it alone. -/
def storedSeasonTables : SeasonTables where
  env := {
    movies := []
    tvs := [storedSeason]
    nodup := List.nodup_singleton _
    missing := fun _ => none
    mediaExists := fun _ => false
    libraryHas := fun _ => false
    titleParser := fun _ => none
    nameContains := fun name title => title <:+: name
    titlesMatch := fun _ _ => false }
  states := []

/-- An event about the season `1` does not find it by the anchor. -/
theorem not_selected_plain_storedSeason :
    ¬∀ (op : SeasonOp) (tables : SeasonTables) (q : SeasonSpelling),
      op.selected tables q.text = op.selected tables.plain q.plain.text := by
  intro h
  have hsame := h
    (anchor { type := .tv, anchorProvider := of "bangumi", anchorExternalId := of "42" })
    storedSeasonTables ⟨1, of "1", ofNat_mem_seasonSpellings 1⟩
  revert hsame
  decide +kernel

end SeasonOp

end WolfNas
