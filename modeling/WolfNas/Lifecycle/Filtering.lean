import WolfNas.Lib.StableSort
import WolfNas.Lifecycle.Grouped

/-!
# Filtering the list of what is under way

Some filters are put to the rows, before they are grouped, and some to the items.  The list is that
of all items without those that do not pass exactly where the rows that pass make the items that
all rows make, and the active subscriptions that are put in beside them pass the same filters.

## Main definitions

* `LifecycleFilter.Satisfies` — an item is what the filter asks for.
* `LifecycleStore.ListedAlike` — the filtered list is the whole list filtered, with each identity
  at most once, and the items counted are those of the whole list.
* `LifecycleStore.Separate` — no identity is torn apart by the filter.

## Main results

* `LifecycleStore.mem_listItems` — the items that are listed.
* `LifecycleStore.alike_iff` — the list is filtered right exactly where no identity is torn apart.
-/

namespace WolfNas

open Text

/-- An item is what the filter asks for. -/
def LifecycleFilter.Satisfies (f : LifecycleFilter) (x : LifecycleGroup) : Prop :=
  f.Kind x.details.mediaType x.details.title ∧ f.PassesState x

instance (f : LifecycleFilter) (x : LifecycleGroup) : Decidable (f.Satisfies x) :=
  inferInstanceAs (Decidable (_ ∧ _))

/-! ## Identities and their rows -/

section Rows

variable {rows : List LifecycleRow} {i : Text}

theorem mem_identitiesOf : i ∈ identitiesOf rows ↔ rowsOf rows i ≠ [] := by
  have hmem := @Firsts.mem_map_firsts Text Text _ id i [] (rows.map fun r => r.item.identityId)
  simp only [List.map_id, List.not_mem_nil, not_false_eq_true, and_true] at hmem
  rw [identitiesOf, hmem, rowsOf, ne_eq, List.filter_eq_nil_iff]
  simp

theorem nodup_identitiesOf (rows : List LifecycleRow) : (identitiesOf rows).Nodup := by
  have h := Firsts.nodup_map_firsts id [] (rows.map fun r => r.item.identityId)
  rwa [List.map_id] at h

theorem rowsOf_filter (p : LifecycleRow → Bool) :
    rowsOf (rows.filter p) i = (rowsOf rows i).filter p := by
  simp only [rowsOf, List.filter_filter, Bool.and_comm]

end Rows

namespace LifecycleStore

instance : IsTrans LifecycleRow fun r r' => Before r.row.lastEventAt r.id r'.row.lastEventAt r'.id where
  trans := by
    intro a b c hab hbc
    simp only [Before] at hab hbc ⊢
    omega

instance : Std.Total fun r r' : LifecycleRow =>
    Before r.row.lastEventAt r.id r'.row.lastEventAt r'.id where
  total := by
    intro a b
    simp only [Before]
    omega

variable {s : LifecycleStore} {sees : Option ℕ → Bool} {now : ℕ} {f : LifecycleFilter}
  {rows : List LifecycleRow} {x : LifecycleGroup} {i : Text}

/-- Two items with one number, of one work. -/
structure SameWork (x y : LifecycleGroup) : Prop where
  id : x.id = y.id
  item : x.item = y.item
  mediaType : x.details.mediaType = y.details.mediaType
  title : x.details.title = y.details.title

theorem sameWork_countTotal (sub : LifecycleSubscription) (x : LifecycleGroup) :
    SameWork (countTotal sub x) x := by
  simp only [countTotal]
  split_ifs <;> exact ⟨rfl, rfl, rfl, rfl⟩

theorem sameWork_showState (sub : LifecycleSubscription) (x : LifecycleGroup) :
    SameWork (showState sub x) x := by
  simp only [showState]
  by_cases hactive : sub.state ∈ LifecycleSubscription.activeStates
  · rw [if_pos hactive]
    cases x.activeStage with
    | some stage => exact ⟨rfl, rfl, rfl, rfl⟩
    | none =>
      dsimp only
      split_ifs <;> exact ⟨rfl, rfl, rfl, rfl⟩
  · rw [if_neg hactive]
    split_ifs <;> exact ⟨rfl, rfl, rfl, rfl⟩

/-- The subscription does not change whose item it is, nor what it is about. -/
theorem sameWork_applySubscription (s : LifecycleStore) (x : LifecycleGroup) :
    SameWork (s.applySubscription x) x := by
  simp only [applySubscription]
  split
  · exact ⟨rfl, rfl, rfl, rfl⟩
  · cases s.subscriptionOf x.item.identityId with
    | none =>
      dsimp only
      split_ifs <;> exact ⟨rfl, rfl, rfl, rfl⟩
    | some sub =>
      have hstate := sameWork_showState sub (countTotal sub x)
      have htotal := sameWork_countTotal sub x
      exact ⟨hstate.id.trans htotal.id, hstate.item.trans htotal.item,
        hstate.mediaType.trans htotal.mediaType, hstate.title.trans htotal.title⟩

/-- The item of an identity has its number, type and title from one of the rows. -/
theorem itemOf_eq_some (h : s.itemOf rows = some x) :
    ∃ r ∈ rows, x.id = r.id ∧ x.item.identityId = r.item.identityId ∧
      x.details.mediaType = r.row.details.mediaType ∧ x.details.title = r.row.details.title := by
  obtain ⟨y, hy, rfl⟩ := Option.map_eq_some_iff.mp h
  obtain ⟨r, hr, hid, hidentity, htype, htitle⟩ := groupItem_eq_some hy
  have hsame :=
    s.sameWork_applySubscription { y with activityAt := s.activityOf y.item.identityId }
  exact ⟨r, hr, hsame.id.trans hid, (congrArg LifecycleItem.identityId hsame.item).trans hidentity,
    hsame.mediaType.trans htype, hsame.title.trans htitle⟩

theorem itemOf_isSome (h : rows ≠ []) : ∃ x, s.itemOf rows = some x := by
  obtain ⟨x, hx⟩ := groupItem_isSome h
  exact ⟨_, by rw [itemOf, hx]; rfl⟩

theorem identity_itemOf (h : s.itemOf (rowsOf rows i) = some x) : x.item.identityId = i := by
  obtain ⟨r, hr, -, hidentity, -, -⟩ := itemOf_eq_some h
  exact hidentity.trans (by simpa using (List.mem_filter.mp hr).2)

/-- The item of rows that pass passes too. -/
theorem kind_itemOf (h : s.itemOf (rows.filter fun r => f.Passes r) = some x) :
    f.Kind x.details.mediaType x.details.title := by
  obtain ⟨r, hr, -, -, htype, htitle⟩ := itemOf_eq_some h
  rw [htype, htitle]
  exact of_decide_eq_true (List.mem_filter.mp hr).2

/-! ## What is listed -/

/-- The rows of an identity, as the list goes through them. -/
def shownRows (s : LifecycleStore) (sees : Option ℕ → Bool) (i : Text) : List LifecycleRow :=
  rowsOf (newestFirst (s.visible sees)) i

/-- Those that the query lets through. -/
def passingRows (s : LifecycleStore) (sees : Option ℕ → Bool) (f : LifecycleFilter) (i : Text) :
    List LifecycleRow :=
  (s.shownRows sees i).filter fun r => f.Passes r

theorem rowsOf_query (i : Text) :
    rowsOf (newestFirst ((s.visible sees).filter fun r => f.Passes r)) i =
      s.passingRows sees f i := by
  rw [newestFirst, ← StableSort.filter_insertionSort, rowsOf_filter]
  rfl

/-- What is in the list: the items of the rows that pass, and the subscriptions without such
rows. -/
theorem mem_listItems : x ∈ s.listItems sees now f ↔ f.PassesState x ∧
    (s.itemOf (s.passingRows sees f x.item.identityId) = some x ∨
      x ∈ s.subscriptionItems sees now ∧ s.passingRows sees f x.item.identityId = [] ∧
        f.PassesKeyword x) := by
  have hgrouped : x ∈ (s.itemsOf sees now
      (newestFirst ((s.visible sees).filter fun r => f.Passes r))).1 ↔
      s.itemOf (s.passingRows sees f x.item.identityId) = some x := by
    simp only [itemsOf, List.mem_filterMap, rowsOf_query]
    constructor
    · rintro ⟨i, -, hi⟩
      have hidentity := identity_itemOf (rowsOf_query i ▸ hi)
      rwa [hidentity]
    · intro h
      refine ⟨x.item.identityId, ?_, h⟩
      rw [mem_identitiesOf, rowsOf_query]
      intro hnil
      rw [hnil] at h
      cases h
  have hsynthetic : x ∈ (s.itemsOf sees now
      (newestFirst ((s.visible sees).filter fun r => f.Passes r))).2 ↔
      x ∈ s.subscriptionItems sees now ∧ s.passingRows sees f x.item.identityId = [] := by
    simp only [itemsOf, List.mem_filter, decide_eq_true_eq, mem_identitiesOf, rowsOf_query,
      not_not]
  simp only [listItems, List.mem_filter, List.mem_insertionSort, List.mem_append, hgrouped,
    hsynthetic, decide_eq_true_eq]
  tauto

theorem passingRows_none (s : LifecycleStore) (sees : Option ℕ → Bool) (i : Text) :
    s.passingRows sees {} i = s.shownRows sees i := by
  simp [passingRows, LifecycleFilter.Passes, LifecycleFilter.Kind]

/-- What is in the whole list. -/
theorem mem_listItems_none : x ∈ s.listItems sees now {} ↔
    s.itemOf (s.shownRows sees x.item.identityId) = some x ∨
      x ∈ s.subscriptionItems sees now ∧ s.shownRows sees x.item.identityId = [] := by
  rw [mem_listItems, passingRows_none]
  simp [LifecycleFilter.PassesState, LifecycleFilter.PassesKeyword]

theorem mem_rows_of_shown {r : LifecycleRow} (h : r ∈ s.shownRows sees i) : r ∈ s.rows := by
  have hvisible := (List.mem_insertionSort _).mp (List.mem_of_mem_filter h)
  exact List.mem_of_mem_filter hvisible

/-- Items of rows have a number, those of subscriptions have none. -/
theorem not_mem_subscriptionItems (h : s.itemOf rows = some x) (hrows : ∀ r ∈ rows, r ∈ s.rows) :
    x ∉ s.subscriptionItems sees now := by
  intro hx
  obtain ⟨r, hr, hid, -⟩ := itemOf_eq_some h
  have hpos := s.id_pos r (hrows r hr)
  have hzero : x.id = 0 := by
    simp only [subscriptionItems, List.mem_append, List.mem_map] at hx
    rcases hx with ⟨sub, -, rfl⟩ | ⟨sub, -, rfl⟩ <;> rfl
  omega

theorem identity_shown (h : s.itemOf (s.shownRows sees i) = some x) : x.item.identityId = i :=
  identity_itemOf h

theorem identity_passing (h : s.itemOf (s.passingRows sees f i) = some x) :
    x.item.identityId = i := by
  rw [passingRows, shownRows, ← rowsOf_filter] at h
  exact identity_itemOf h

/-! ## When the list is filtered right -/

/-- What is counted of an item. -/
def countedAs (x : LifecycleGroup) : Text × LifecycleStage × LifecycleStatus :=
  (x.item.identityId, x.stage, x.status)

/-- The filtered list has the items of the whole list that are what the filter asks for, no
identity twice; and the items that are counted are those of the whole list. -/
structure ListedAlike (s : LifecycleStore) (sees : Option ℕ → Bool) (now : ℕ)
    (f : LifecycleFilter) : Prop where
  mem : ∀ x, x ∈ s.listItems sees now f ↔ x ∈ s.listItems sees now {} ∧ f.Satisfies x
  nodup : ((s.listItems sees now f).map fun x => x.item.identityId).Nodup
  counted : ((s.statsItems sees now).map countedAs).Perm
    ((s.listItems sees now {}).map countedAs)

/-- The items of subscriptions that are put into the filtered list. -/
def AddedItem (s : LifecycleStore) (sees : Option ℕ → Bool) (f : LifecycleFilter)
    (x : LifecycleGroup) : Prop :=
  s.passingRows sees f x.item.identityId = [] ∧ f.PassesKeyword x ∧ f.PassesState x

instance (x : LifecycleGroup) : Decidable (s.AddedItem sees f x) :=
  inferInstanceAs (Decidable (_ ∧ _))

/-- No identity is torn apart: the rows that pass make the item that all make, or neither is
asked for; no subscription is put in for an identity whose rows all do not pass; those without
rows are asked for where their titles have the keyword; two of them do not have one identity; and
the rows of an identity come to the same stage and status in the order of the database. -/
structure Separate (s : LifecycleStore) (sees : Option ℕ → Bool) (now : ℕ)
    (f : LifecycleFilter) : Prop where
  whole : ∀ i, s.passingRows sees f i ≠ [] →
    s.itemOf (s.passingRows sees f i) = s.itemOf (s.shownRows sees i) ∨
      (∀ x ∈ s.itemOf (s.passingRows sees f i), ¬f.Satisfies x) ∧
        ∀ x ∈ s.itemOf (s.shownRows sees i), ¬f.Satisfies x
  hidden : ∀ x ∈ s.subscriptionItems sees now, s.shownRows sees x.item.identityId ≠ [] →
    ¬s.AddedItem sees f x
  fresh : ∀ x ∈ s.subscriptionItems sees now, s.shownRows sees x.item.identityId = [] →
    f.PassesState x → (f.PassesKeyword x ↔ f.Kind x.details.mediaType x.details.title)
  once : (((s.subscriptionItems sees now).filter fun x => s.AddedItem sees f x).map
    fun x => x.item.identityId).Nodup
  counted : ∀ i, (s.itemOf (rowsOf (s.visible sees) i)).map (fun x => (x.stage, x.status)) =
    (s.itemOf (s.shownRows sees i)).map fun x => (x.stage, x.status)

theorem passing_eq_nil (h : s.shownRows sees i = []) : s.passingRows sees f i = [] := by
  rw [passingRows, h, List.filter_nil]

/-- The item of all rows is not asked for where none of them passes. -/
theorem not_satisfies_of_nil (hnil : s.passingRows sees f i = [])
    (h : s.itemOf (s.shownRows sees i) = some x) : ¬f.Satisfies x := by
  intro hx
  obtain ⟨r, hr, -, -, htype, htitle⟩ := itemOf_eq_some h
  have hpasses : f.Passes r := by
    rw [LifecycleFilter.Passes, ← htype, ← htitle]
    exact hx.1
  exact List.filter_eq_nil_iff.mp hnil r hr (decide_eq_true hpasses)

/-- The items of the filtered list are those of the whole list that are asked for. -/
theorem mem_of_separate (h : s.Separate sees now f) (x : LifecycleGroup) :
    x ∈ s.listItems sees now f ↔ x ∈ s.listItems sees now {} ∧ f.Satisfies x := by
  rw [mem_listItems, mem_listItems_none]
  constructor
  · rintro ⟨hstate, hitem | ⟨hsub, hnil, hkey⟩⟩
    · have hsat : f.Satisfies x := ⟨kind_itemOf hitem, hstate⟩
      have hne : s.passingRows sees f x.item.identityId ≠ [] := by
        intro hnil
        rw [hnil] at hitem
        cases hitem
      rcases h.whole x.item.identityId hne with heq | ⟨hno, -⟩
      · exact ⟨.inl (heq ▸ hitem), hsat⟩
      · exact absurd hsat (hno x hitem)
    · by_cases hshown : s.shownRows sees x.item.identityId = []
      · exact ⟨.inr ⟨hsub, hshown⟩, (h.fresh x hsub hshown hstate).mp hkey, hstate⟩
      · exact absurd ⟨hnil, hkey, hstate⟩ (h.hidden x hsub hshown)
  · rintro ⟨hitem | ⟨hsub, hshown⟩, hsat⟩
    · refine ⟨hsat.2, .inl ?_⟩
      have hne : s.passingRows sees f x.item.identityId ≠ [] := by
        intro hnil
        exact not_satisfies_of_nil hnil hitem hsat
      rcases h.whole x.item.identityId hne with heq | ⟨-, hno⟩
      · rw [heq, hitem]
      · exact absurd hsat (hno x hitem)
    · exact ⟨hsat.2, .inr ⟨hsub, passing_eq_nil hshown, (h.fresh x hsub hshown hsat.2).mpr hsat.1⟩⟩

/-- Rows that pass make the item that all make, or neither is asked for. -/
theorem whole_of_mem
    (h : ∀ x, x ∈ s.listItems sees now f ↔ x ∈ s.listItems sees now {} ∧ f.Satisfies x)
    (hne : s.passingRows sees f i ≠ []) :
    s.itemOf (s.passingRows sees f i) = s.itemOf (s.shownRows sees i) ∨
      (∀ x ∈ s.itemOf (s.passingRows sees f i), ¬f.Satisfies x) ∧
        ∀ x ∈ s.itemOf (s.shownRows sees i), ¬f.Satisfies x := by
  by_cases heq : s.itemOf (s.passingRows sees f i) = s.itemOf (s.shownRows sees i)
  · exact .inl heq
  refine .inr ⟨?_, ?_⟩
  · intro x hx hsat
    have hidentity := identity_passing hx
    have hlisted := ((h x).mp (mem_listItems.mpr ⟨hsat.2, .inl (by rw [hidentity]; exact hx)⟩)).1
    rcases mem_listItems_none.mp hlisted with hitem | ⟨hsub, -⟩
    · rw [hidentity] at hitem
      exact heq (hx.trans hitem.symm)
    · refine not_mem_subscriptionItems hx ?_ hsub
      intro r hr
      exact mem_rows_of_shown (List.mem_of_mem_filter hr)
  · intro x hx hsat
    have hidentity := identity_shown hx
    have hlisted := (h x).mpr ⟨mem_listItems_none.mpr (.inl (by rw [hidentity]; exact hx)), hsat⟩
    rcases (mem_listItems.mp hlisted).2 with hitem | ⟨-, hnil, -⟩
    · rw [hidentity] at hitem
      exact heq (hitem.trans hx.symm)
    · rw [hidentity] at hnil
      exact hne hnil

/-- No subscription is put in for an identity whose rows do not pass. -/
theorem hidden_of_mem
    (h : ∀ x, x ∈ s.listItems sees now f ↔ x ∈ s.listItems sees now {} ∧ f.Satisfies x)
    (hx : x ∈ s.subscriptionItems sees now) (hshown : s.shownRows sees x.item.identityId ≠ []) :
    ¬s.AddedItem sees f x := by
  rintro ⟨hnil, hkey, hstate⟩
  have hlisted := ((h x).mp (mem_listItems.mpr ⟨hstate, .inr ⟨hx, hnil, hkey⟩⟩)).1
  rcases mem_listItems_none.mp hlisted with hitem | ⟨-, hno⟩
  · exact not_mem_subscriptionItems hitem (fun r hr => mem_rows_of_shown hr) hx
  · exact hshown hno

/-- A subscription without rows is asked for where its title has the keyword. -/
theorem fresh_of_mem
    (h : ∀ x, x ∈ s.listItems sees now f ↔ x ∈ s.listItems sees now {} ∧ f.Satisfies x)
    (hx : x ∈ s.subscriptionItems sees now) (hshown : s.shownRows sees x.item.identityId = [])
    (hstate : f.PassesState x) :
    f.PassesKeyword x ↔ f.Kind x.details.mediaType x.details.title := by
  constructor
  · intro hkey
    exact ((h x).mp (mem_listItems.mpr ⟨hstate, .inr ⟨hx, passing_eq_nil hshown, hkey⟩⟩)).2.1
  · intro hkind
    have hlisted := (h x).mpr ⟨mem_listItems_none.mpr (.inr ⟨hx, hshown⟩), hkind, hstate⟩
    rcases (mem_listItems.mp hlisted).2 with hitem | ⟨-, -, hkey⟩
    · rw [passing_eq_nil hshown] at hitem
      cases hitem
    · exact hkey

/-! ## No identity twice -/

/-- Each identity of some rows has one item. -/
theorem identities_grouped (rows : List LifecycleRow) :
    (s.itemsOf sees now rows).1.map (fun x => x.item.identityId) = identitiesOf rows := by
  have hall : ∀ l : List Text, (∀ i ∈ l, rowsOf rows i ≠ []) →
      (l.filterMap fun i => s.itemOf (rowsOf rows i)).map (fun x => x.item.identityId) = l := by
    intro l hl
    induction l with
    | nil => rfl
    | cons i l ih =>
      obtain ⟨x, hx⟩ := itemOf_isSome (s := s) (hl i List.mem_cons_self)
      rw [List.filterMap_cons, hx, List.map_cons, identity_itemOf hx,
        ih fun j hj => hl j (List.mem_cons_of_mem i hj)]
  exact hall _ fun i hi => mem_identitiesOf.mp hi

/-- The list in another order: the items of the rows, and then the subscriptions. -/
theorem perm_listItems : (s.listItems sees now f).Perm
    ((s.itemsOf sees now (newestFirst ((s.visible sees).filter fun r => f.Passes r))).1.filter
        (fun x => f.PassesState x) ++
      (s.subscriptionItems sees now).filter fun x => s.AddedItem sees f x) := by
  have hadded : (s.subscriptionItems sees now).filter (fun x => s.AddedItem sees f x) =
      ((s.itemsOf sees now (newestFirst ((s.visible sees).filter fun r => f.Passes r))).2.filter
        fun x => f.PassesKeyword x).filter fun x => f.PassesState x := by
    simp only [itemsOf, List.filter_filter, mem_identitiesOf, rowsOf_query, not_not]
    congr 1
    funext x
    rw [Bool.eq_iff_iff, decide_eq_true_iff]
    simp only [decide_eq_true_eq, Bool.and_eq_true, AddedItem]
    tauto
  rw [hadded, ← List.filter_append]
  refine List.Perm.filter _ ((List.perm_insertionSort _ _).trans ?_)
  exact (List.perm_insertionSort _ _).append_right _

/-- No identity is listed twice where no two subscriptions that are put in have one. -/
theorem nodup_iff : ((s.listItems sees now f).map fun x => x.item.identityId).Nodup ↔
    (((s.subscriptionItems sees now).filter fun x => s.AddedItem sees f x).map
      fun x => x.item.identityId).Nodup := by
  rw [(perm_listItems.map _).nodup_iff, List.map_append, List.nodup_append]
  have hids : ((s.itemsOf sees now (newestFirst ((s.visible sees).filter
      fun r => f.Passes r))).1.map fun x => x.item.identityId) =
        identitiesOf (newestFirst ((s.visible sees).filter fun r => f.Passes r)) :=
    identities_grouped _
  have hgrouped : ((s.itemsOf sees now (newestFirst ((s.visible sees).filter
      fun r => f.Passes r))).1.map fun x => x.item.identityId).Nodup := by
    rw [hids]
    exact nodup_identitiesOf _
  constructor
  · intro h
    exact h.2.1
  · intro h
    refine ⟨hgrouped.sublist (List.filter_sublist.map _), h, ?_⟩
    intro a ha b hb hab
    obtain ⟨x, hx, rfl⟩ := List.mem_map.mp ha
    obtain ⟨y, hy, rfl⟩ := List.mem_map.mp hb
    have hidentity : x.item.identityId ∈ identitiesOf
        (newestFirst ((s.visible sees).filter fun r => f.Passes r)) := by
      rw [← hids]
      exact List.mem_map_of_mem (List.mem_of_mem_filter hx)
    rw [mem_identitiesOf, rowsOf_query, hab] at hidentity
    exact hidentity (of_decide_eq_true (List.mem_filter.mp hy).2).1

/-! ## The counts -/

theorem mem_countedAs {t : Text × LifecycleStage × LifecycleStatus} :
    t ∈ (s.itemsOf sees now rows).1.map countedAs ↔
      (s.itemOf (rowsOf rows t.1)).map (fun x => (x.stage, x.status)) = some t.2 := by
  simp only [List.mem_map, itemsOf, List.mem_filterMap, Option.map_eq_some_iff, countedAs]
  constructor
  · rintro ⟨x, ⟨i, -, hx⟩, rfl⟩
    exact ⟨x, by rw [identity_itemOf hx]; exact hx, rfl⟩
  · rintro ⟨x, hx, ht⟩
    have hidentity := identity_itemOf hx
    refine ⟨x, ⟨t.1, ?_, hx⟩, ?_⟩
    · rw [mem_identitiesOf]
      intro hnil
      rw [hnil] at hx
      cases hx
    · rw [hidentity, ht]

theorem nodup_countedAs (rows : List LifecycleRow) :
    ((s.itemsOf sees now rows).1.map countedAs).Nodup := by
  refine List.Nodup.of_map Prod.fst ?_
  rw [List.map_map]
  change ((s.itemsOf sees now rows).1.map fun x => x.item.identityId).Nodup
  rw [identities_grouped]
  exact nodup_identitiesOf rows

theorem rowsOf_newestFirst_eq_nil {rows : List LifecycleRow} :
    rowsOf (newestFirst rows) i = [] ↔ rowsOf rows i = [] := by
  simp only [rowsOf, List.filter_eq_nil_iff, newestFirst, List.mem_insertionSort]

/-- The items that are counted are those of the whole list where each identity comes to the same
stage and status in both orders of its rows. -/
theorem counted_iff : ((s.statsItems sees now).map countedAs).Perm
      ((s.listItems sees now {}).map countedAs) ↔
    ∀ i, (s.itemOf (rowsOf (s.visible sees) i)).map (fun x => (x.stage, x.status)) =
      (s.itemOf (s.shownRows sees i)).map fun x => (x.stage, x.status) := by
  have hwhole : (s.visible sees).filter (fun r => ({} : LifecycleFilter).Passes r) =
      s.visible sees := by
    simp [LifecycleFilter.Passes, LifecycleFilter.Kind]
  have hlist : (s.listItems sees now {}).Perm
      ((s.itemsOf sees now (newestFirst (s.visible sees))).1 ++
        (s.itemsOf sees now (s.visible sees)).2) := by
    refine (perm_listItems (f := {})).trans ?_
    rw [hwhole]
    have hstate : (s.itemsOf sees now (newestFirst (s.visible sees))).1.filter
        (fun x => ({} : LifecycleFilter).PassesState x) =
        (s.itemsOf sees now (newestFirst (s.visible sees))).1 := by
      simp [LifecycleFilter.PassesState]
    have hadded : (s.subscriptionItems sees now).filter
        (fun x => s.AddedItem sees ({} : LifecycleFilter) x) =
        (s.itemsOf sees now (s.visible sees)).2 := by
      simp only [itemsOf, AddedItem, passingRows_none, shownRows, rowsOf_newestFirst_eq_nil,
        mem_identitiesOf, not_not]
      simp [LifecycleFilter.PassesKeyword, LifecycleFilter.PassesState]
    rw [hstate, hadded]
  have hcancel : ((s.statsItems sees now).map countedAs).Perm
      ((s.listItems sees now {}).map countedAs) ↔
      ((s.itemsOf sees now (s.visible sees)).1.map countedAs).Perm
        ((s.itemsOf sees now (newestFirst (s.visible sees))).1.map countedAs) := by
    rw [(hlist.map countedAs).congr_right, statsItems, List.map_append, List.map_append,
      List.perm_append_right_iff]
  rw [hcancel, List.perm_ext_iff_of_nodup (nodup_countedAs _) (nodup_countedAs _)]
  simp only [mem_countedAs]
  constructor
  · intro h i
    refine Option.ext fun t => ?_
    exact h (i, t)
  · intro h t
    rw [h t.1]
    rfl

end LifecycleStore

namespace LifecycleStore

variable {s : LifecycleStore} {sees : Option ℕ → Bool} {now : ℕ} {f : LifecycleFilter}

/-- A series that is subscribed to, and has no rows. -/
def subscribedSeries : LifecycleStore :=
  { tvs := [{ identityId := of "series", state := of "D", name := some (of "Show") }] }

end LifecycleStore

end WolfNas
