import Mathlib.Data.Finset.Card
import WolfNas.Identity.Index
import WolfNas.Lib.BreadthFirst
import WolfNas.Lib.Dict

/-!
# The franchise around a subject

From one Bangumi subject the relations are read breadth-first, and the subjects that were named
become the members of a franchise.

## Main definitions

* `GraphEnv.ensureBgmFranchise` — `ensure_bgm_franchise`, with its loop `GraphEnv.walk`.
* `GraphEnv.explored` — the subjects whose relations are read, told from the graph alone.
* `GraphEnv.FranchiseFits` — what is stored has its start, few members, and none far away.

## Main results

* `GraphEnv.ensureBgmFranchise_ends` — on every graph the loop ends.
* `GraphEnv.ensureBgmFranchise_iff` — where the stored franchise fits.
-/

namespace WolfNas

open Text BreadthFirst

/-! ## The graph -/

/-- One entry of `relations`, with 0 and the empty text for what is missing. -/
structure BgmRelation where
  type : Option ℤ
  id : ℤ
  name : Text := []
  nameCn : Text := []
  relation : Text := []

/-- The types of relations between works. -/
inductive EditionRelation
  | sequel
  | prequel
  | spinoff
  | special
  | mainStory
  | compilation
  | remake
  | altVersion
  | other
  deriving DecidableEq

/-- `_RELATION_MAP`. -/
def relationMap : List (Text × EditionRelation) :=
  [(of "续集", .sequel), (of "前传", .prequel), (of "衍生", .spinoff), (of "番外篇", .special),
    (of "主线故事", .mainStory), (of "总集篇", .compilation), (of "重制", .remake),
    (of "不同版本", .altVersion)]

/-- `EditionEdge`. -/
structure EditionEdge where
  targetSource : WorkSource
  targetId : ℤ
  relation : EditionRelation
  targetTitle : Text

/-- `Franchise`. -/
structure Franchise where
  key : Text
  name : Text
  members : List (WorkSource × ℤ)

/-- The cache of franchises and edges. -/
structure GraphCache where
  franchises : Text → Option Franchise := fun _ => none
  edges : WorkSource → ℤ → Option (List EditionEdge) := fun _ _ => none

/-- `put_franchise`. -/
def GraphCache.putFranchise (graph : GraphCache) (f : Franchise) : GraphCache :=
  { graph with franchises := fun key => if key = f.key then some f else graph.franchises key }

/-- `put_edges`. -/
def GraphCache.putEdges (graph : GraphCache) (source : WorkSource) (workId : ℤ)
    (edges : List EditionEdge) : GraphCache :=
  { graph with edges := fun s i =>
    if s = source ∧ i = workId then some edges else graph.edges s i }

/-- What the graph calls besides its own code. -/
structure GraphEnv extends IndexEnv where
  /-- `Bangumi.relations`; none where it raises. -/
  relations : ℤ → Option (List BgmRelation)
  /-- The Chinese name and the name of `Bangumi.detail`; none where there are no details. -/
  detail : ℤ → Option (Text × Text)

/-- `_MAX_DEPTH`. -/
def maxDepth : ℕ := 2

/-- `_MAX_MEMBERS`. -/
def maxMembers : ℕ := 30

/-- What the loop collects; the members have their name and Chinese name. -/
structure FoundGraph where
  root : Option ℤ := none
  members : Dict ℤ (Text × Text) := .empty
  edges : Dict ℤ (List EditionEdge) := .empty

/-- The state of the loop. -/
structure GraphWalk where
  found : FoundGraph := {}
  queue : List (ℤ × ℕ)
  seen : Finset ℤ := ∅

/-- The relation is to an anime, which has a number. -/
def BgmRelation.Counts (rel : BgmRelation) : Prop := rel.type = some 2 ∧ rel.id ≠ 0

instance BgmRelation.decidableCounts (rel : BgmRelation) : Decidable rel.Counts :=
  inferInstanceAs (Decidable (_ ∧ _))

/-- What a relation adds to what was found. -/
def FoundGraph.add (bid current : ℤ) (found : FoundGraph) (rel : BgmRelation) : FoundGraph :=
  if rel.Counts then
    { root := if found.root = none ∧ current = bid then some current else found.root
      members := if rel.id ∈ found.members.keys then found.members
        else found.members.set rel.id (rel.name, rel.nameCn)
      edges := found.edges.set current (((found.edges.get current).getD []) ++
        [{ targetSource := .bgm
           targetId := rel.id
           relation := (relationMap.lookup rel.relation).getD .other
           targetTitle := if rel.nameCn ≠ [] then rel.nameCn else rel.name }]) }
  else found

namespace GraphEnv

variable (env : GraphEnv)

/-- One turn of the loop over the relations of a subject. -/
def takeRelation (bid current : ℤ) (depth : ℕ) (w : GraphWalk) (rel : BgmRelation) : GraphWalk :=
  if rel.Counts then
    { w with
      found := w.found.add bid current rel
      queue := if depth + 1 ≤ maxDepth ∧ rel.id ∉ w.seen then w.queue ++ [(rel.id, depth + 1)]
        else w.queue }
  else w

/-- The loop over the queue.  The inner none is the early `return None`, the outer one says that
the fuel ran out. -/
def walk (bid : ℤ) : ℕ → GraphWalk → Option (Option FoundGraph)
  | 0, _ => none
  | n + 1, w =>
    match w.queue with
    | [] => some (some w.found)
    | (current, depth) :: queue =>
      if maxMembers ≤ w.found.members.entries.length then some (some w.found)
      else if current ∈ w.seen ∨ maxDepth < depth then walk bid n { w with queue }
      else
        let w' := { w with queue, seen := insert current w.seen }
        match env.relations current with
        | none => walk bid n w'
        | some rels =>
          if current = bid ∧ rels = [] then some none
          else walk bid n (rels.foldl (takeRelation bid current depth) w')

/-- `_franchise_key_of`. -/
def franchiseKeyOf (name : Text) : Text := lower ((env.normalizeText name).filter (· ≠ ' '))

/-- The name of the root. -/
def rootName (bid : ℤ) : Text :=
  match env.detail bid with
  | none => []
  | some (nameCn, name) => if nameCn ≠ [] then nameCn else name

/-- The franchise of the members that were found. -/
def franchiseOf (bid : ℤ) (found : FoundGraph) : Franchise :=
  let name := if env.rootName bid ≠ [] then env.rootName bid else of "bgm:" ++ ofInt bid
  { key := env.franchiseKeyOf name
    name
    members := found.members.keys.map (.bgm, ·) }

/-- `ensure_bgm_franchise`: the key, and the cache afterwards; none where the fuel runs out. -/
def ensureBgmFranchise (n : ℕ) (graph : GraphCache) (bid : ℤ) : Option (Option Text × GraphCache) :=
  (env.walk bid n { queue := [(bid, 0)] }).map fun
    | none => (none, graph)
    | some found =>
      if found.members.entries = [] then (none, graph)
      else
        let f := env.franchiseOf bid found
        (some f.key, found.edges.entries.foldl (fun graph e => graph.putEdges .bgm e.1 e.2)
          (graph.putFranchise f))

/-! ## The purpose -/

/-- The subjects that a subject is related to. -/
def named (a : ℤ) : List ℤ :=
  (((env.relations a).getD []).filter (·.Counts)).map BgmRelation.id

/-- The franchise has its start and at most thirty members, all within two hops. -/
structure FranchiseFits (bid : ℤ) (f : Franchise) : Prop where
  start : (.bgm, bid) ∈ f.members
  few : f.members.length ≤ maxMembers
  near : ∀ m ∈ f.members, m.1 = .bgm ∧ WithinHops env.named maxDepth bid m.2

/-- Whatever the call stores fits. -/
def StoresFitting (graph : GraphCache) (bid : ℤ) : Prop :=
  ∀ n key graph', env.ensureBgmFranchise n graph bid = some (some key, graph') →
    ∃ f, graph'.franchises key = some f ∧ env.FranchiseFits bid f

/-- The subjects down to the last level, up to the one with which thirty are named. -/
def explored (bid : ℤ) : List ℤ :=
  readUntil (fun s : Finset ℤ => maxMembers ≤ s.card) (fun s a => s ∪ (env.named a).toFinset) ∅
    (visits env.named maxDepth ∅ [bid])

/-- The graph around the subject: one that is explored is related to it, together they are related
to at most thirty, and the ones two hops away to none three hops away. -/
structure ClosesAround (bid : ℤ) : Prop where
  back : ∃ a ∈ env.explored bid, bid ∈ env.named a
  few : ((env.explored bid).flatMap env.named).toFinset.card ≤ maxMembers
  near : ∀ a ∈ env.explored bid, ¬WithinHops env.named 1 bid a →
    ∀ b ∈ env.named a, WithinHops env.named maxDepth bid b

variable {env} {graph graph' : GraphCache} {bid current : ℤ} {depth n : ℕ} {found : FoundGraph}
  {w : GraphWalk}

/-! ## One subject -/

/-- What the relations of a subject add to what was found. -/
def addRelations (env : GraphEnv) (bid : ℤ) (found : FoundGraph) (current : ℤ) : FoundGraph :=
  ((env.relations current).getD []).foldl (FoundGraph.add bid current) found

/-- The loop over the relations: they are added, and the new subjects join the queue. -/
theorem foldl_takeRelation (rels : List BgmRelation) :
    rels.foldl (takeRelation bid current depth) w =
      { w with
        found := rels.foldl (FoundGraph.add bid current) w.found
        queue := w.queue ++ if depth + 1 ≤ maxDepth then
          (((rels.filter (·.Counts)).map BgmRelation.id).filter (· ∉ w.seen)).map (·, depth + 1)
          else [] } := by
  induction rels generalizing w with
  | nil => simp
  | cons rel rels ih =>
    rw [List.foldl_cons, List.foldl_cons, ih, takeRelation, FoundGraph.add]
    by_cases hcounts : rel.Counts
    · by_cases hdepth : depth + 1 ≤ maxDepth <;> by_cases hseen : rel.id ∈ w.seen <;>
        simp [hcounts, hdepth, hseen]
    · simp [hcounts]

/-- The members after a relation. -/
theorem keys_add (rel : BgmRelation) : (found.add bid current rel).members.keys.toFinset =
    if rel.Counts then insert rel.id found.members.keys.toFinset
    else found.members.keys.toFinset := by
  rw [FoundGraph.add]
  by_cases hcounts : rel.Counts
  · rw [if_pos hcounts, if_pos hcounts]
    dsimp only
    by_cases hmem : rel.id ∈ found.members.keys
    · rw [if_pos hmem, Finset.insert_eq_of_mem (List.mem_toFinset.mpr hmem)]
    · rw [if_neg hmem]
      ext x
      simp
  · rw [if_neg hcounts, if_neg hcounts]

/-- The members after a subject: those that were there, and those that it names. -/
theorem keys_addRelations : (env.addRelations bid found current).members.keys.toFinset =
    found.members.keys.toFinset ∪ (env.named current).toFinset := by
  rw [addRelations, named]
  induction (env.relations current).getD [] generalizing found with
  | nil => simp
  | cons rel rels ih =>
    rw [List.foldl_cons, ih, keys_add]
    by_cases hcounts : rel.Counts
    · simp [hcounts, Finset.insert_union]
    · simp [hcounts]

theorem card_keys (members : Dict ℤ (Text × Text)) :
    members.keys.toFinset.card = members.entries.length := by
  have hnodup : members.keys.Nodup := members.nodup
  rw [List.toFinset_card_of_nodup hnodup, Dict.keys, List.length_map]

/-! ## The loop -/

/-- There is no room for more members. -/
def isFull (found : FoundGraph) : Bool := maxMembers ≤ found.members.entries.length

/-- Unless the start has no relations, the loop is a breadth-first search. -/
theorem walk_eq_search (h : env.relations bid ≠ some []) : env.walk bid n w =
    (search env.named maxDepth isFull (env.addRelations bid) n w.queue w.seen
      w.found).map some := by
  induction n generalizing w with
  | zero => rfl
  | succ n ih =>
    obtain ⟨found, queue, seen⟩ := w
    match queue with
    | [] => rfl
    | (current, depth) :: queue =>
      rw [walk, search]
      by_cases hfull : maxMembers ≤ found.members.entries.length
      · simp [isFull, hfull]
      by_cases hskip : current ∈ seen ∨ maxDepth < depth
      · simp only [isFull, hfull, hskip, if_false, if_true, decide_false, Bool.false_eq_true]
        exact ih
      simp only [isFull, hfull, hskip, if_false, decide_false, Bool.false_eq_true]
      cases hrels : env.relations current with
      | none =>
        simp only [ih, addRelations, named, deeper, hrels, Option.getD_none, List.filter_nil,
          List.map_nil, List.foldl_nil, ite_self, List.append_nil]
      | some rels =>
        have hstart : ¬(current = bid ∧ rels = []) := by
          rintro ⟨rfl, rfl⟩
          exact h hrels
        simp only [if_neg hstart, ih, foldl_takeRelation, addRelations, named, deeper, hrels,
          Option.getD_some]

/-- What the loop finds around the subject. -/
def foundAround (env : GraphEnv) (bid : ℤ) : FoundGraph :=
  outcome isFull (env.addRelations bid) {} (visits env.named maxDepth ∅ [bid])

theorem walk_ends (h : env.relations bid ≠ some []) :
    ∃ n, env.walk bid n { queue := [(bid, 0)] } = some (some (env.foundAround bid)) := by
  have hends : Ends env.named maxDepth isFull (env.addRelations bid) [(bid, 0)] ∅ {}
      (env.foundAround bid) := search_ends bid ({} : FoundGraph)
  obtain ⟨n, hn⟩ := hends
  exact ⟨n, by rw [walk_eq_search h, hn]; rfl⟩

theorem walk_unique (h : env.relations bid ≠ some []) {r : Option FoundGraph}
    (hr : env.walk bid n { queue := [(bid, 0)] } = some r) : r = some (env.foundAround bid) := by
  rw [walk_eq_search h, Option.map_eq_some_iff] at hr
  obtain ⟨found, hfound, rfl⟩ := hr
  exact congrArg some ((search_ends bid ({} : FoundGraph)).unique hfound)

/-- The members are what the explored subjects name. -/
theorem keys_foundAround : (env.foundAround bid).members.keys.toFinset =
    ((env.explored bid).flatMap env.named).toFinset := by
  have hfold : ∀ (l : List ℤ) (found : FoundGraph),
      (l.foldl (env.addRelations bid) found).members.keys.toFinset =
        found.members.keys.toFinset ∪ (l.flatMap env.named).toFinset := by
    intro l
    induction l with
    | nil => simp
    | cons a l ih =>
      intro found
      rw [List.foldl_cons, ih, keys_addRelations, List.flatMap_cons, List.toFinset_append,
        Finset.union_assoc]
  have hread : readUntil isFull (env.addRelations bid) {} (visits env.named maxDepth ∅ [bid]) =
      readUntil (fun s : Finset ℤ => maxMembers ≤ s.card)
        (fun s a => s ∪ (env.named a).toFinset) ({} : FoundGraph).members.keys.toFinset
        (visits env.named maxDepth ∅ [bid]) :=
    readUntil_of_view (fun found : FoundGraph => found.members.keys.toFinset)
      (fun found => by rw [isFull, card_keys]) (fun _ _ => keys_addRelations) {} _
  rw [foundAround, outcome, hfold, hread]
  exact Finset.empty_union _

/-! ## What is stored -/

theorem walk_of_no_relations (h : env.relations bid = some []) :
    env.walk bid (n + 1) { queue := [(bid, 0)] } = some none := by
  have hroom : ¬maxMembers ≤ ({} : FoundGraph).members.entries.length := by decide
  rw [walk]
  dsimp only
  rw [if_neg hroom, if_neg (by simp [maxDepth]), h]
  simp

/-- On every graph the loop ends. -/
theorem ensureBgmFranchise_ends (env : GraphEnv) (graph : GraphCache) (bid : ℤ) :
    ∃ n r, env.ensureBgmFranchise n graph bid = some r := by
  by_cases hnone : env.relations bid = some []
  · exact ⟨1, _, by rw [ensureBgmFranchise, walk_of_no_relations hnone, Option.map_some]⟩
  · obtain ⟨n, hn⟩ := walk_ends hnone
    exact ⟨n, _, by rw [ensureBgmFranchise, hn, Option.map_some]⟩

/-- A start that is related to none is the only subject that is explored. -/
theorem explored_of_named_nil (h : env.named bid = []) : env.explored bid = [bid] := by
  have hvisits : visits env.named maxDepth ∅ [bid] = [bid] := by
    simp [maxDepth, visits, fresh, h]
  rw [explored, hvisits]
  rfl

theorem start_mem_explored : bid ∈ env.explored bid := by
  rw [explored, maxDepth, visits, List.singleton_append, readUntil, if_neg (by decide)]
  exact List.mem_cons_self

theorem members_nil_iff :
    (env.foundAround bid).members.entries = [] ↔ env.named bid = [] := by
  rw [← List.length_eq_zero_iff, ← card_keys, Finset.card_eq_zero, keys_foundAround,
    List.toFinset_eq_empty_iff]
  constructor
  · intro h
    exact List.flatMap_eq_nil_iff.mp h bid start_mem_explored
  · intro h
    rw [explored_of_named_nil h, List.flatMap_singleton, h]

/-- What a call that ends with a key has stored. -/
theorem stored_of_key {key : Text}
    (h : env.ensureBgmFranchise n graph bid = some (some key, graph')) :
    env.named bid ≠ [] ∧
      graph'.franchises key = some (env.franchiseOf bid (env.foundAround bid)) := by
  have hedges : ∀ (l : List (ℤ × List EditionEdge)) (graph : GraphCache),
      (l.foldl (fun graph e => graph.putEdges .bgm e.1 e.2) graph).franchises =
        graph.franchises := by
    intro l
    induction l with
    | nil => exact fun _ => rfl
    | cons e l ih => exact fun graph => ih _
  by_cases hnone : env.relations bid = some []
  · cases n with
    | zero => cases h
    | succ n =>
      rw [ensureBgmFranchise, walk_of_no_relations hnone] at h
      cases h
  · obtain ⟨r, hr, hstored⟩ := Option.map_eq_some_iff.mp h
    rw [walk_unique hnone hr] at hstored
    dsimp only at hstored
    by_cases hnil : env.named bid = []
    · rw [if_pos (members_nil_iff.mpr hnil)] at hstored
      cases hstored
    · rw [if_neg fun hempty => hnil (members_nil_iff.mp hempty)] at hstored
      obtain ⟨hkey, rfl⟩ := Prod.mk.inj hstored
      refine ⟨hnil, ?_⟩
      rw [hedges]
      exact if_pos (Option.some.inj hkey).symm

/-- Where the start is related to one, a key is returned. -/
theorem exists_key (h : env.named bid ≠ []) (graph : GraphCache) :
    ∃ n key graph', env.ensureBgmFranchise n graph bid = some (some key, graph') := by
  have hsome : env.relations bid ≠ some [] := fun hnil => h (by rw [named, hnil]; rfl)
  obtain ⟨n, hn⟩ := walk_ends hsome
  refine ⟨n, ?_⟩
  rw [ensureBgmFranchise, hn, Option.map_some]
  dsimp only
  rw [if_neg fun hnil => h (members_nil_iff.mp hnil)]
  exact ⟨_, _, rfl⟩

theorem mem_franchiseOf {m : WorkSource × ℤ} :
    m ∈ (env.franchiseOf bid (env.foundAround bid)).members ↔
      m.1 = .bgm ∧ ∃ a ∈ env.explored bid, m.2 ∈ env.named a := by
  have hkeys : m.2 ∈ (env.foundAround bid).members.keys ↔
      ∃ a ∈ env.explored bid, m.2 ∈ env.named a := by
    rw [← List.mem_toFinset, keys_foundAround, List.mem_toFinset, List.mem_flatMap]
  rw [← hkeys, franchiseOf, List.mem_map]
  constructor
  · rintro ⟨i, hi, rfl⟩
    exact ⟨rfl, hi⟩
  · rintro ⟨hsource, hi⟩
    exact ⟨m.2, hi, Prod.ext hsource.symm rfl⟩

theorem franchiseFits_iff :
    env.FranchiseFits bid (env.franchiseOf bid (env.foundAround bid)) ↔ env.ClosesAround bid := by
  have hlength : (env.franchiseOf bid (env.foundAround bid)).members.length =
      ((env.explored bid).flatMap env.named).toFinset.card := by
    rw [← keys_foundAround, card_keys, franchiseOf, List.length_map, Dict.keys, List.length_map]
  constructor
  · intro h
    refine ⟨(mem_franchiseOf.mp h.start).2, hlength ▸ h.few, ?_⟩
    intro a ha _ b hb
    exact (h.near (.bgm, b) (mem_franchiseOf.mpr ⟨rfl, a, ha, hb⟩)).2
  · intro h
    refine ⟨mem_franchiseOf.mpr ⟨rfl, h.back⟩, hlength ▸ h.few, ?_⟩
    intro m hm
    obtain ⟨hsource, a, ha, hma⟩ := mem_franchiseOf.mp hm
    refine ⟨hsource, ?_⟩
    by_cases hnear : WithinHops env.named 1 bid a
    · exact hnear.step hma
    · exact h.near a ha hnear m.2 hma

/-- On every graph the call ends; and what it stores fits exactly where the start is related to
none, or the graph closes around it. -/
theorem ensureBgmFranchise_iff (env : GraphEnv) (graph : GraphCache) (bid : ℤ) :
    (∃ n r, env.ensureBgmFranchise n graph bid = some r) ∧
      (env.StoresFitting graph bid ↔ env.named bid = [] ∨ env.ClosesAround bid) := by
  refine ⟨ensureBgmFranchise_ends env graph bid, ?_⟩
  constructor
  · intro h
    by_cases hnone : env.named bid = []
    · exact .inl hnone
    · obtain ⟨n, key, graph', hcall⟩ := exists_key hnone graph
      obtain ⟨f, hf, hfits⟩ := h n key graph' hcall
      rw [(stored_of_key hcall).2] at hf
      cases hf
      exact .inr (franchiseFits_iff.mp hfits)
  · intro h n key graph' hcall
    obtain ⟨hsome, hf⟩ := stored_of_key hcall
    exact ⟨_, hf, franchiseFits_iff.mpr (h.resolve_left hsome)⟩

/-- A provider that knows one sequel. -/
def sequelEnv : GraphEnv where
  specialChars := id
  md5 := id
  relations a :=
    if a = 1 then some [{ type := some 2, id := 2, relation := of "续集" }] else some []
  detail _ := none

/-- The franchise of a subject with one sequel is the sequel alone. -/
theorem not_storesFitting_sequel : ¬sequelEnv.StoresFitting {} 1 := by
  intro h
  have hnamed : sequelEnv.named 1 ≠ [] := by decide
  obtain ⟨n, key, graph', hcall⟩ := exists_key hnamed {}
  obtain ⟨f, hf, hfits⟩ := h n key graph' hcall
  rw [(stored_of_key hcall).2] at hf
  cases hf
  obtain ⟨_, a, ha, hstart⟩ := mem_franchiseOf.mp hfits.start
  have hexplored : sequelEnv.explored 1 = [1, 2] := by decide +kernel
  rw [hexplored] at ha
  revert a
  decide

end GraphEnv

end WolfNas
