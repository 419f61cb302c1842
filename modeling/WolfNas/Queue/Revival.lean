import WolfNas.Queue.Stream
import Mathlib.Data.List.Nodup

/-!
# Operations that run to completion

Where each operation of the stream queue runs alone, a task whose hash says that it is not over
can still be claimed, and a cancelled task is never executed, unless a failure puts a task back
whose entry is gone, or the hash of a cancelled task expires before its entry is gone.

## Main definitions

* `Revival.AtomicMove`, `Revival.Ledger`, `Revival.step` — operations, one after another, and the
  tasks that were cancelled.
* `Revival.Base` — the stream, its group, the hashes and the objects fit together.
* `Revival.Claimable` — every task that is not over has an entry that can be delivered.
* `Revival.Quiet` — no hash of a cancelled task says that it is not over.
* `Revival.Sound` — the condition on an operation.

## Main results

* `Revival.good_step` — an operation that meets the condition keeps all of it.
* `Revival.delivered_or_over` — in a run whose operations meet the condition, all of it holds, and
  no cancelled task is executed.
-/

namespace WolfNas

open Text

namespace TaskStore

variable {J : Type} (env : StreamQueueSettings) (s : TaskStore J)

/-- An entry is acknowledged and deleted. -/
def dropEntry (streamId : Text) : TaskStore J :=
  { s with
    pending := s.pending.filter fun p => env.streamIdOf p.number ≠ streamId
    entries := s.entries.filter fun e => env.streamIdOf e.number ≠ streamId }

/-- The entry of a task, where it has one, is dropped. -/
def dropEntryOf (t : QueueTask J) : TaskStore J :=
  if t.streamId = [] then s else s.dropEntry env t.streamId

end TaskStore

namespace Revival

open StreamQueue

variable {J : Type} (env : StreamQueueSettings)

/-- What is written at an entry's id is the entry's task. -/
def Own (s : TaskStore J) (t : QueueTask J) : Prop :=
  (t.streamId ≠ [] → ∃ n ≤ s.lastEntry, env.streamIdOf n = t.streamId) ∧
    ∀ e ∈ s.entries, env.streamIdOf e.number = t.streamId → e.fields.taskId = t.id

/-- The stream, its group, the hashes and the objects fit together. -/
structure Base (s : TaskStore J) : Prop where
  keyed : ∀ id t, s.hash id = some t → t.id = id
  sorted : s.entries.Pairwise fun a b => a.number < b.number
  bounded : ∀ e ∈ s.entries, e.number ≤ s.lastEntry
  behind : s.lastDelivered ≤ s.lastEntry
  known : ∀ e ∈ s.entries, e.number ≤ s.lastDelivered → ∃ p ∈ s.pending, p.number = e.number
  objects : ∀ t ∈ s.objects, Own env s t
  hashes : ∀ id t, s.hash id = some t → Own env s t

/-- A task that is not over has an entry. -/
def Entered (s : TaskStore J) : Prop :=
  ∀ id t, s.hash id = some t → t.status.terminal = false → ∃ e ∈ s.entries, e.fields.taskId = id

/-- A task that is not over has an entry that is pending or not delivered yet. -/
def Claimable (s : TaskStore J) : Prop :=
  ∀ id t, s.hash id = some t → t.status.terminal = false →
    ∃ e ∈ s.entries, e.fields.taskId = id ∧
      (s.lastDelivered < e.number ∨ ∃ p ∈ s.pending, p.number = e.number)

/-- The hashes of cancelled tasks say that they are over. -/
def Quiet (cancelled : List Text) (s : TaskStore J) : Prop :=
  ∀ id ∈ cancelled, ∀ t, s.hash id = some t → t.status.terminal = true

/-- The invariant. -/
structure Good (cancelled : List Text) (s : TaskStore J) : Prop where
  base : Base env s
  entered : Entered s
  quiet : Quiet cancelled s

variable {env} {s s' : TaskStore J} {cancelled : List Text} {t u : QueueTask J}

theorem Good.claimable (h : Good env cancelled s) : Claimable s := by
  intro id t ht hopen
  obtain ⟨e, he, hid⟩ := h.entered id t ht hopen
  refine ⟨e, he, hid, ?_⟩
  by_cases hdelivered : e.number ≤ s.lastDelivered
  · exact .inr (h.base.known e he hdelivered)
  · exact .inl (not_le.mp hdelivered)

/-- Entries with one number are one entry. -/
theorem Base.eq_of_number (h : Base env s) {e e' : StreamEntry J} (he : e ∈ s.entries)
    (he' : e' ∈ s.entries) (hnumber : e.number = e'.number) : e = e' := by
  have hnodup : (s.entries.map StreamEntry.number).Nodup :=
    List.pairwise_map.mpr (h.sorted.imp fun hlt => ne_of_lt hlt)
  exact List.inj_on_of_nodup_map hnodup he he' hnumber

/-- Entries with one id are one entry. -/
theorem Base.eq_of_streamId (h : Base env s) {e e' : StreamEntry J} (he : e ∈ s.entries)
    (he' : e' ∈ s.entries) (hid : env.streamIdOf e.number = env.streamIdOf e'.number) : e = e' :=
  h.eq_of_number he he' (env.streamIdOf_injective hid)

/-! ## Changes of the store -/

/-- Only objects, reservations, dead entries and the time change; hashes stay or go. -/
theorem Good.frame (h : Good env cancelled s) (hentries : s'.entries = s.entries)
    (hlast : s'.lastEntry = s.lastEntry) (hdelivered : s'.lastDelivered = s.lastDelivered)
    (hpending : s'.pending = s.pending) (hobjects : ∀ t ∈ s'.objects, Own env s t)
    (hhash : ∀ id t, s'.hash id = some t → s.hash id = some t) : Good env cancelled s' := by
  have hown : ∀ t, Own env s t → Own env s' t := by
    intro t ht
    unfold Own
    rw [hentries, hlast]
    exact ht
  refine ⟨⟨?_, ?_, ?_, ?_, ?_, ?_, ?_⟩, ?_, ?_⟩
  · exact fun id t ht => h.base.keyed id t (hhash id t ht)
  · rw [hentries]
    exact h.base.sorted
  · rw [hentries, hlast]
    exact h.base.bounded
  · rw [hdelivered, hlast]
    exact h.base.behind
  · rw [hentries, hdelivered, hpending]
    exact h.base.known
  · exact fun t ht => hown t (hobjects t ht)
  · exact fun id t ht => hown t (h.base.hashes id t (hhash id t ht))
  · rw [Entered, hentries]
    exact fun id t ht => h.entered id t (hhash id t ht)
  · exact fun id hid t ht => h.quiet id hid t (hhash id t ht)

theorem good_create (h : Good env cancelled s) (ht : Own env s t) :
    Good env cancelled { s with objects := s.objects ++ [t] } := by
  refine h.frame rfl rfl rfl rfl ?_ fun _ _ ht => ht
  intro u hu
  rcases List.mem_append.mp hu with hu | hu
  · exact h.base.objects u hu
  · obtain rfl := List.mem_singleton.mp hu
    exact ht

theorem good_assign (h : Good env cancelled s) (k : ℕ) {f : QueueTask J → QueueTask J}
    (hf : ∀ t, (f t).id = t.id ∧ (f t).streamId = t.streamId) :
    Good env cancelled { s with objects := s.objects.modify k f } := by
  refine h.frame rfl rfl rfl rfl ?_ fun _ _ ht => ht
  intro u hu
  obtain ⟨j, hj⟩ := List.mem_iff_getElem?.mp hu
  simp only [List.getElem?_modify, Option.map_eq_map, Option.map_eq_some_iff] at hj
  obtain ⟨v, hv, hvu⟩ := hj
  have hown := h.base.objects v (List.mem_of_getElem? hv)
  split_ifs at hvu with hkj
  · subst hvu
    unfold Own
    rw [(hf v).1, (hf v).2]
    exact hown
  · obtain rfl := hvu
    exact hown

/-- The entry of tasks that are over, or have no hash, is dropped. -/
theorem good_drop (h : Good env cancelled s) {streamId : Text}
    (hover : ∀ e ∈ s.entries, env.streamIdOf e.number = streamId →
      ∀ t, s.hash e.fields.taskId = some t → t.status.terminal = true) :
    Good env cancelled (s.dropEntry env streamId) := by
  have hsub : ∀ e ∈ (s.dropEntry env streamId).entries, e ∈ s.entries :=
    fun e he => (List.mem_filter.mp he).1
  have hown : ∀ t, Own env s t → Own env (s.dropEntry env streamId) t :=
    fun t ht => ⟨ht.1, fun e he => ht.2 e (hsub e he)⟩
  refine ⟨⟨h.base.keyed, ?_, ?_, h.base.behind, ?_, ?_, ?_⟩, ?_, h.quiet⟩
  · exact h.base.sorted.sublist List.filter_sublist
  · exact fun e he => h.base.bounded e (hsub e he)
  · intro e he hle
    obtain ⟨he, hkept⟩ := List.mem_filter.mp he
    obtain ⟨p, hp, hnumber⟩ := h.base.known e he hle
    refine ⟨p, List.mem_filter.mpr ⟨hp, ?_⟩, hnumber⟩
    rw [hnumber]
    exact hkept
  · exact fun t ht => hown t (h.base.objects t ht)
  · exact fun id t ht => hown t (h.base.hashes id t ht)
  · intro id t ht hopen
    obtain ⟨e, he, rfl⟩ := h.entered id t ht hopen
    refine ⟨e, List.mem_filter.mpr ⟨he, ?_⟩, rfl⟩
    rw [decide_eq_true_eq]
    intro hid
    exact absurd (hover e he hid t ht) (by simp [hopen])

/-- A hash is written of a task that is over, or has an entry and was not cancelled. -/
theorem good_writeHash (h : Good env cancelled s) (ht : Own env s t)
    (hopen : t.status.terminal = false → (∃ e ∈ s.entries, e.fields.taskId = t.id) ∧
      t.id ∉ cancelled) : Good env cancelled (s.writeHash t) := by
  refine ⟨⟨?_, h.base.sorted, h.base.bounded, h.base.behind, h.base.known, h.base.objects, ?_⟩, ?_, ?_⟩
  · intro id u hu
    rw [TaskStore.hash_writeHash] at hu
    split_ifs at hu with hid
    · obtain rfl := Option.some.inj hu
      exact hid.symm
    · exact h.base.keyed id u hu
  · intro id u hu
    rw [TaskStore.hash_writeHash] at hu
    split_ifs at hu with hid
    · obtain rfl := Option.some.inj hu
      exact ht
    · exact h.base.hashes id u hu
  · intro id u hu hstatus
    rw [TaskStore.hash_writeHash] at hu
    split_ifs at hu with hid
    · obtain rfl := Option.some.inj hu
      subst hid
      exact (hopen hstatus).1
    · exact h.entered id u hu hstatus
  · intro id hid u hu
    rw [TaskStore.hash_writeHash] at hu
    split_ifs at hu with hsame
    · obtain rfl := Option.some.inj hu
      subst hsame
      by_contra hstatus
      exact (hopen (Bool.eq_false_iff.mpr hstatus)).2 hid
    · exact h.quiet id hid u hu

/-- The hash of a task that is over is written, which may be cancelled now. -/
theorem good_writeOver (h : Good env cancelled s) (ht : Own env s t)
    (hover : t.status.terminal = true) : Good env (t.id :: cancelled) (s.writeHash t) := by
  have hgood : Good env cancelled (s.writeHash t) := by
    refine good_writeHash h ht ?_
    intro hopen
    rw [hover] at hopen
    cases hopen
  refine ⟨hgood.base, hgood.entered, ?_⟩
  intro id hid u hu
  rcases List.mem_cons.mp hid with rfl | hid
  · rw [TaskStore.hash_writeHash, if_pos rfl] at hu
    obtain rfl := Option.some.inj hu
    exact hover
  · exact hgood.quiet id hid u hu

theorem Good.subset (h : Good env cancelled s) {cancelled' : List Text}
    (hsub : ∀ id ∈ cancelled', id ∈ cancelled) : Good env cancelled' s :=
  ⟨h.base, h.entered, fun id hid => h.quiet id (hsub id hid)⟩

/-- An entry is added. -/
theorem good_add (h : Good env cancelled s) (fields : StreamFields J) :
    Good env cancelled { s with
      entries := s.entries ++ [⟨s.lastEntry + 1, fields⟩]
      lastEntry := s.lastEntry + 1 } := by
  have hown : ∀ t, Own env s t → Own env { s with
      entries := s.entries ++ [⟨s.lastEntry + 1, fields⟩]
      lastEntry := s.lastEntry + 1 } t := by
    rintro t ⟨hid, htask⟩
    refine ⟨?_, ?_⟩
    · intro hne
      obtain ⟨n, hn, heq⟩ := hid hne
      exact ⟨n, hn.trans (Nat.le_succ _), heq⟩
    · intro e he heq
      rcases List.mem_append.mp he with he | he
      · exact htask e he heq
      · obtain rfl := List.mem_singleton.mp he
        have hne : t.streamId ≠ [] := heq ▸ env.streamIdOf_ne_nil _
        obtain ⟨n, hn, hn'⟩ := hid hne
        have hsame : n = s.lastEntry + 1 := env.streamIdOf_injective (hn'.trans heq.symm)
        omega
  refine ⟨⟨h.base.keyed, ?_, ?_, ?_, ?_, ?_, ?_⟩, ?_, h.quiet⟩
  · refine List.pairwise_append.mpr ⟨h.base.sorted, List.pairwise_singleton _ _, ?_⟩
    intro e he e' he'
    obtain rfl := List.mem_singleton.mp he'
    have hle := h.base.bounded e he
    dsimp only
    omega
  · intro e he
    rcases List.mem_append.mp he with he | he
    · exact (h.base.bounded e he).trans (Nat.le_succ _)
    · obtain rfl := List.mem_singleton.mp he
      exact le_rfl
  · exact h.base.behind.trans (Nat.le_succ _)
  · intro e he hle
    rcases List.mem_append.mp he with he | he
    · exact h.base.known e he hle
    · obtain rfl := List.mem_singleton.mp he
      have hbehind := h.base.behind
      dsimp only at hle
      omega
  · exact fun t ht => hown t (h.base.objects t ht)
  · exact fun id t ht => hown t (h.base.hashes id t ht)
  · intro id t ht hopen
    obtain ⟨e, he, hid⟩ := h.entered id t ht hopen
    exact ⟨e, List.mem_append_left _ he, hid⟩

/-- Entries change their consumer. -/
theorem good_takeOver (h : Good env cancelled s) (consumer : Text) (taken : List PendingEntry) :
    Good env cancelled (s.takeOver consumer taken) := by
  refine ⟨⟨h.base.keyed, h.base.sorted, h.base.bounded, h.base.behind, ?_, h.base.objects,
    h.base.hashes⟩, h.entered, h.quiet⟩
  intro e he hle
  obtain ⟨p, hp, hnumber⟩ := h.base.known e he hle
  have hentry : (s.entryOf p.number).isSome := by
    rw [TaskStore.entryOf, List.find?_isSome]
    exact ⟨e, he, by simp [hnumber]⟩
  by_cases htaken : p ∈ taken
  · refine ⟨{ p with consumer, since := s.now }, List.mem_filterMap.mpr ⟨p, hp, ?_⟩, hnumber⟩
    rw [if_pos htaken, if_pos hentry]
  · exact ⟨p, List.mem_filterMap.mpr ⟨p, hp, if_neg htaken⟩, hnumber⟩

theorem foldl_max_lt {numbers : List ℕ} {m b : ℕ} (hm : m < b) (h : ∀ n ∈ numbers, n < b) :
    numbers.foldl max m < b := by
  induction numbers generalizing m with
  | nil => exact hm
  | cons n numbers ih =>
    refine ih (max_lt hm (h n List.mem_cons_self)) ?_
    exact fun n' hn' => h n' (List.mem_cons_of_mem n hn')

theorem foldl_max_le {numbers : List ℕ} {m b : ℕ} (hm : m ≤ b) (h : ∀ n ∈ numbers, n ≤ b) :
    numbers.foldl max m ≤ b := by
  have hlt : numbers.foldl max m < b + 1 :=
    foldl_max_lt (by omega) fun n hn => by have hle := h n hn; omega
  omega

/-- The next entries are delivered. -/
theorem good_deliver (h : Good env cancelled s) (consumer : Text) (count : ℕ) :
    Good env cancelled (s.deliver consumer (s.undelivered.take count)) := by
  have hnew : ∀ e ∈ s.undelivered.take count, e ∈ s.entries := fun e he =>
    (List.mem_filter.mp (List.mem_of_mem_take he)).1
  refine ⟨⟨h.base.keyed, h.base.sorted, h.base.bounded, ?_, ?_, h.base.objects, h.base.hashes⟩,
    h.entered, h.quiet⟩
  · refine foldl_max_le h.base.behind ?_
    intro n hn
    obtain ⟨e, he, rfl⟩ := List.mem_map.mp hn
    exact h.base.bounded e (hnew e he)
  · intro e he hle
    by_cases hold : e.number ≤ s.lastDelivered
    · obtain ⟨p, hp, hnumber⟩ := h.base.known e he hold
      exact ⟨p, List.mem_append_left _ hp, hnumber⟩
    · have hwaiting : e ∈ s.undelivered := List.mem_filter.mpr ⟨he, by simpa using hold⟩
      have htaken : e ∈ s.undelivered.take count := by
        by_contra hnot
        have hrest : e ∈ s.undelivered.drop count := by
          rw [← List.take_append_drop count s.undelivered] at hwaiting
          exact (List.mem_append.mp hwaiting).resolve_left hnot
        have hsorted : (s.undelivered.take count ++ s.undelivered.drop count).Pairwise
            fun a b => a.number < b.number := by
          rw [List.take_append_drop]
          exact h.base.sorted.sublist List.filter_sublist
        have hbefore := (List.pairwise_append.mp hsorted).2.2
        refine absurd hle (not_le.mpr (foldl_max_lt (not_le.mp hold) ?_))
        intro n hn
        obtain ⟨e', he', rfl⟩ := List.mem_map.mp hn
        exact hbefore e' he' e hrest
      refine ⟨⟨e.number, consumer, s.now⟩, ?_, rfl⟩
      exact List.mem_append_right _ (List.mem_map.mpr ⟨e, htaken, rfl⟩)

theorem good_expire (h : Good env cancelled s) (id : Text) {ttl : ℤ} (httl : 0 < ttl) :
    Good env cancelled (s.expireHash id ttl) := by
  have hhash := fun id' => TaskStore.hash_expireHash (s := s) id id' httl
  revert hhash
  unfold TaskStore.expireHash
  split
  · exact fun _ => h
  · intro hhash
    exact h.frame rfl rfl rfl rfl h.base.objects fun id' t ht => hhash id' ▸ ht

theorem good_tick (h : Good env cancelled s) (now : ℚ) : Good env cancelled (s.tick now) :=
  h.frame rfl rfl rfl rfl h.base.objects fun _ _ ht => TaskStore.hash_of_tick ht

/-! ## Operations, alone -/

variable (env) in
/-- A call is answered without a failure. -/
def alone (reached : List ℕ) (s : TaskStore J) (c : RedisCall J) : TaskStore J × c.Reply :=
  s.serve env { reached } c

variable {reached : List ℕ} {k : ℕ}

theorem ends_removeEntryOf (t : QueueTask J) (s : TaskStore J) :
    (removeEntryOf t).Ends (alone env reached)
      (fun removed s' => removed = true ∧ s' = s.dropEntryOf env t) s := by
  unfold removeEntryOf TaskStore.dropEntryOf
  split
  · exact ⟨rfl, rfl⟩
  · exact ⟨rfl, rfl⟩

theorem ends_writeHash (hk : s.objects[k]? = some t) :
    (writeHash k : Queueing J Unit).Ends (alone env reached) (fun _ s' => s' = s.writeHash t) s := by
  change (alone env reached s (.hset k)).1 = s.writeHash t
  simp only [alone, TaskStore.serve, hk]

theorem ends_expireHash (h : Good env cancelled s) (id : Text) :
    (expireHash env id : Queueing J Unit).Ends (alone env reached)
      (fun _ s' => Good env cancelled s') s := by
  unfold expireHash
  split
  · exact h
  · rename_i httl
    exact good_expire h id (not_le.mp httl)

/-- The entry of a task whose hash says that it is over is dropped. -/
theorem good_dropOf (h : Good env cancelled s) (ht : Own env s t)
    (hover : ∀ u, s.hash t.id = some u → u.status.terminal = true) :
    Good env cancelled (s.dropEntryOf env t) := by
  unfold TaskStore.dropEntryOf
  split
  · exact h
  · refine good_drop h ?_
    intro e he hid u hu
    rw [ht.2 e he hid] at hu
    exact hover u hu

/-- A task that is over is taken out of the stream, and its hash is written. -/
theorem ends_settle (h : Good env cancelled s) (hk : s.objects[k]? = some u) (hid : u.id = t.id)
    (hstream : u.streamId = t.streamId) (hover : u.status.terminal = true) :
    (settle env k t).Ends (alone env reached) (fun _ s' => Good env (t.id :: cancelled) s') s := by
  refine Process.ends_bind (ends_removeEntryOf t s) ?_
  rintro removed s₁ ⟨rfl, rfl⟩
  have hobjects : (s.dropEntryOf env t).objects[k]? = some u := by
    unfold TaskStore.dropEntryOf
    split
    · exact hk
    · exact hk
  rw [if_pos rfl]
  refine Process.ends_bind (ends_writeHash hobjects) ?_
  rintro _ s₂ rfl
  have hown := h.base.objects u (List.mem_of_getElem? hk)
  have hcomm : (s.dropEntryOf env t).writeHash u = (s.writeHash u).dropEntryOf env u := by
    unfold TaskStore.dropEntryOf
    rw [hstream]
    split
    · rfl
    · rfl
  have hgood : Good env (t.id :: cancelled) ((s.dropEntryOf env t).writeHash u) := by
    rw [hcomm, ← hid]
    refine good_dropOf (good_writeOver h hown hover) hown ?_
    intro v hv
    rw [TaskStore.hash_writeHash, if_pos rfl] at hv
    obtain rfl := Option.some.inj hv
    exact hover
  exact Process.ends_bind (ends_expireHash hgood t.id) fun _ _ h => h

/-- An object is read. -/
theorem ends_load (k : ℕ) (s : TaskStore J) :
    (ask (.load k) : Queueing J _).Ends (alone env reached)
      (fun t s' => t = s.objects[k]? ∧ s' = s) s := ⟨rfl, rfl⟩

/-- The clock is read. -/
theorem ends_clock (s : TaskStore J) :
    (ask .clock : Queueing J _).Ends (alone env reached) (fun _ s' => s' = s) s := rfl

/-- An object is made. -/
theorem ends_create (t : QueueTask J) (s : TaskStore J) :
    (ask (.create t) : Queueing J _).Ends (alone env reached)
      (fun k s' => k = s.objects.length ∧ s' = { s with objects := s.objects ++ [t] }) s :=
  ⟨rfl, rfl⟩

/-- An object changes. -/
theorem ends_assign (h : Good env cancelled s) {f : QueueTask J → QueueTask J}
    (hf : ∀ t, (f t).id = t.id ∧ (f t).streamId = t.streamId) (hk : s.objects[k]? = some t) :
    (ask (.assign k f) : Queueing J _).Ends (alone env reached)
      (fun _ s' => Good env cancelled s' ∧ s'.objects[k]? = some (f t) ∧ s'.entries = s.entries ∧
        ∀ id, s'.hash id = s.hash id) s := by
  refine ⟨good_assign h k hf, ?_, rfl, fun _ => rfl⟩
  change (s.objects.modify k f)[k]? = some (f t)
  simp [hk]

theorem ends_ack (h : Good env cancelled s) (result : Option J) :
    (ack env k result).Ends (alone env reached) (fun _ s' => Good env cancelled s') s := by
  refine Process.ends_bind (ends_load k s) ?_
  rintro _ _ ⟨rfl, rfl⟩
  split
  · exact h
  · rename_i t ht
    refine Process.ends_bind (ends_clock _) ?_
    rintro now _ rfl
    refine Process.ends_bind (ends_assign h (fun _ => ⟨rfl, rfl⟩) ht) ?_
    rintro _ s₁ ⟨hgood, hobject, -⟩
    refine Process.Ends.weaken (ends_settle hgood hobject rfl rfl rfl) ?_
    exact fun _ _ hdone => hdone.subset fun _ hid => List.mem_cons_of_mem _ hid

theorem ends_cancel (h : Good env cancelled s) :
    (cancel env k : Queueing J QueueResult).Ends (alone env reached)
      (fun _ s' => Good env (((s.objects[k]?).map QueueTask.id).toList ++ cancelled) s') s := by
  refine Process.ends_bind (ends_load k s) ?_
  rintro _ _ ⟨rfl, rfl⟩
  split
  · rename_i hnone
    rw [hnone]
    exact h
  · rename_i t ht
    refine Process.ends_bind (ends_clock _) ?_
    rintro now _ rfl
    refine Process.ends_bind (ends_assign h (fun _ => ⟨rfl, rfl⟩) ht) ?_
    rintro _ s₁ ⟨hgood, hobject, -⟩
    rw [ht]
    exact ends_settle hgood hobject rfl rfl rfl

/-- A failure that is retried finds the task in the stream, and not cancelled. -/
theorem ends_retry (h : Good env cancelled s) (hk : s.objects[k]? = some t)
    (hentry : ∃ e ∈ s.entries, e.fields.taskId = t.id) (hfree : t.id ∉ cancelled) (attempts : ℕ) :
    (retry k attempts : Queueing J QueueResult).Ends (alone env reached)
      (fun _ s' => Good env cancelled s') s := by
  refine Process.ends_bind (ends_clock _) ?_
  rintro now _ rfl
  refine Process.ends_bind (ends_assign h (fun _ => ⟨rfl, rfl⟩) hk) ?_
  rintro _ s₁ ⟨hgood, hobject, hentries, -⟩
  refine Process.ends_bind (ends_writeHash hobject) ?_
  rintro _ _ rfl
  refine good_writeHash hgood (hgood.base.objects _ (List.mem_of_getElem? hobject)) fun _ => ?_
  rw [hentries]
  exact ⟨hentry, hfree⟩

theorem ends_bury (h : Good env cancelled s) (hk : s.objects[k]? = some t) {t' : QueueTask J}
    (hid : t.id = t'.id) (hstream : t.streamId = t'.streamId) (error : Text) (retryable : Bool) :
    (bury env k t' error retryable).Ends (alone env reached)
      (fun _ s' => Good env cancelled s') s := by
  refine Process.ends_bind (ends_assign h (fun _ => ⟨rfl, rfl⟩) hk) ?_
  rintro _ s₁ ⟨hgood, hobject, -⟩
  obtain ⟨u, hu, huid, hustream, hover⟩ : ∃ u, s₁.objects[k]? = some u ∧ u.id = t'.id ∧
      u.streamId = t'.streamId ∧ u.status.terminal = true := by
    refine ⟨_, hobject, hid, hstream, ?_⟩
    cases retryable
    · rfl
    · rfl
  have hown := hgood.base.objects u (List.mem_of_getElem? hu)
  refine Process.ends_bind (ends_writeHash hu) ?_
  rintro _ _ rfl
  have hdead : (ask (.xaddDead k error) : Queueing J _).Ends (alone env reached)
      (fun r s' => r = .ok () ∧ Good env cancelled s' ∧ Own env s' u ∧
        s'.hash u.id = some u.stored) (s₁.writeHash u) := by
    have hwritten := (good_writeOver hgood hown hover).subset fun _ hid =>
      List.mem_cons_of_mem u.id hid
    have hhash : (s₁.writeHash u).hash u.id = some u.stored := by
      rw [TaskStore.hash_writeHash, if_pos rfl]
    have hobjects : (s₁.writeHash u).objects[k]? = some u := hu
    have hserve : alone env reached (s₁.writeHash u) (.xaddDead k error) =
        ({ s₁.writeHash u with dead := s₁.dead ++ [(u.toStream, error)] }, .ok ()) := by
      simp only [alone, TaskStore.serve, hobjects]
      rfl
    unfold Process.Ends ask Process.ask
    rw [Process.run_call, Process.run_ret, hserve]
    refine ⟨rfl, ?_, hown, hhash⟩
    exact hwritten.frame rfl rfl rfl rfl hwritten.base.objects fun _ _ ht => ht
  refine Process.ends_bind hdead ?_
  rintro _ s₂ ⟨rfl, hgood₂, hown₂, hhash₂⟩
  refine Process.ends_bind (ends_removeEntryOf t' s₂) ?_
  rintro removed _ ⟨rfl, rfl⟩
  have hgone : Good env cancelled (s₂.dropEntryOf env t') := by
    have heq : s₂.dropEntryOf env t' = s₂.dropEntryOf env u := by
      rw [TaskStore.dropEntryOf, TaskStore.dropEntryOf, hustream]
    rw [heq]
    refine good_dropOf hgood₂ hown₂ ?_
    intro v hv
    rw [hhash₂] at hv
    obtain rfl := Option.some.inj hv
    exact hover
  rw [if_pos rfl]
  exact Process.ends_bind (ends_expireHash hgone _) fun _ _ h => h

variable (env) in
/-- The failure puts the task back in the queue. -/
def Retries (s : TaskStore J) (t : QueueTask J) (retryable : Bool) : Prop :=
  retryable ∧ max t.attempts ((s.hash t.id).elim 0 QueueTask.attempts) + 1 < t.maxAttempts

theorem ends_fail (h : Good env cancelled s) (error : Text) (retryable : Bool)
    (hsound : ∀ t ∈ s.objects[k]?, Retries s t retryable →
      (∃ e ∈ s.entries, e.fields.taskId = t.id) ∧ t.id ∉ cancelled) :
    (fail env k error retryable : Queueing J QueueResult).Ends (alone env reached)
      (fun _ s' => Good env cancelled s') s := by
  refine Process.ends_bind (ends_load k s) ?_
  rintro _ s ⟨rfl, rfl⟩
  split
  · exact h
  · rename_i t ht
    have hattempts : (hashAttempts t.id : Queueing J ℕ).Ends (alone env reached)
        (fun n s' => n = (s.hash t.id).elim 0 QueueTask.attempts ∧ s' = s) s := by
      have hask : (ask (.hgetAttempts t.id) : Queueing J _).Ends (alone env reached)
          (fun r s' => r = .ok ((s.hash t.id).map QueueTask.attempts) ∧ s' = s) s := ⟨rfl, rfl⟩
      refine Process.ends_bind hask ?_
      rintro _ s₀ ⟨rfl, rfl⟩
      cases s₀.hash t.id with
      | none => exact ⟨rfl, rfl⟩
      | some u => exact ⟨rfl, rfl⟩
    refine Process.ends_bind hattempts ?_
    rintro _ _ ⟨rfl, rfl⟩
    refine Process.ends_bind (ends_clock _) ?_
    rintro now s rfl
    dsimp only
    refine Process.ends_bind (ends_assign h (fun _ => ⟨rfl, rfl⟩) ht) ?_
    rintro _ s₁ ⟨hgood, hobject, hentries, -⟩
    split
    · rename_i hretries
      obtain ⟨hentry, hfree⟩ := hsound t ht hretries
      refine ends_retry hgood hobject ?_ hfree _
      rw [hentries]
      exact hentry
    · exact ends_bury hgood hobject rfl rfl error retryable

theorem ends_heartbeat (h : Good env cancelled s)
    (hsound : ∀ t ∈ s.objects[k]?, t.streamId ≠ [] → t.status.terminal = false →
      (∃ e ∈ s.entries, e.fields.taskId = t.id) ∧ t.id ∉ cancelled) :
    (heartbeat env k : Queueing J QueueResult).Ends (alone env reached)
      (fun _ s' => Good env cancelled s') s := by
  refine Process.ends_bind (ends_load k s) ?_
  rintro _ s ⟨rfl, rfl⟩
  split
  · exact h
  · rename_i t ht
    split
    · exact h
    · rename_i hstream
      refine Process.ends_bind (ends_clock _) ?_
      rintro now s rfl
      refine Process.ends_bind (ends_assign h (fun _ => ⟨rfl, rfl⟩) ht) ?_
      rintro _ s₁ ⟨hgood, hobject, hentries, -⟩
      refine Process.ends_bind (ends_writeHash hobject) ?_
      rintro _ _ rfl
      have hwritten := good_writeHash hgood (hgood.base.objects _ (List.mem_of_getElem? hobject))
        fun hopen => by
          rw [hentries]
          exact hsound t ht hstream hopen
      refine Process.ends_bind (ends_load k _) ?_
      rintro _ s₂ ⟨rfl, rfl⟩
      split
      · exact hwritten
      · rename_i u hu
        have hclaim : (ask (.xclaimJustid u.leaseOwner u.streamId) : Queueing J _).Ends
            (alone env reached) (fun _ s' => Good env cancelled s') (s₁.writeHash _) :=
          good_takeOver hwritten _ _
        refine Process.ends_bind hclaim ?_
        intro r s₃ hgood₃
        cases r with
        | error e => exact hgood₃
        | ok v => exact hgood₃

/-- Nothing was added, and no object was lost. -/
def Later (s s' : TaskStore J) : Prop :=
  s'.lastEntry = s.lastEntry ∧
    ∀ (j : ℕ) (t : QueueTask J), s.objects[j]? = some t → s'.objects[j]? = some t

theorem Later.trans {s'' : TaskStore J} (h : Later s s') (h' : Later s' s'') : Later s s'' :=
  ⟨h'.1.trans h.1, fun j t hj => h'.2 j t (h.2 j t hj)⟩

theorem later_create (t : QueueTask J) : Later s { s with objects := s.objects ++ [t] } := by
  refine ⟨rfl, ?_⟩
  intro j u hj
  rw [List.getElem?_append_left (List.getElem?_eq_some_iff.mp hj).1]
  exact hj

theorem ends_get (h : Good env cancelled s) (id : Text) :
    (get id : Queueing J (Option ℕ)).Ends (alone env reached)
      (fun _ s' => Good env cancelled s' ∧ Later s s') s := by
  have hask : (ask (.hgetall id) : Queueing J _).Ends (alone env reached)
      (fun r s' => r = .ok (s.hash id) ∧ s' = s) s := ⟨rfl, rfl⟩
  refine Process.ends_bind hask ?_
  rintro _ s ⟨rfl, rfl⟩
  cases hhash : s.hash id with
  | none => exact ⟨h, rfl, fun _ _ hj => hj⟩
  | some t => exact ⟨good_create h (h.base.hashes id t hhash), later_create t⟩

/-- The reservations change. -/
theorem good_reservations (h : Good env cancelled s)
    (reservations : Text → Option (Text × Option ℚ)) :
    Good env cancelled { s with reservations } :=
  h.frame rfl rfl rfl rfl h.base.objects fun _ _ ht => ht

theorem ends_reserveDedup (h : Good env cancelled s) (key id : Text) (n : ℕ) :
    (reserveDedup key id n : Queueing J Reserving).Ends (alone env reached)
      (fun _ s' => Good env cancelled s' ∧ Later s s') s := by
  induction n generalizing s with
  | zero => exact ⟨h, rfl, fun _ _ hj => hj⟩
  | succ n ih =>
    have hset : (ask (.setReservation key id) : Queueing J _).Ends (alone env reached)
        (fun _ s' => Good env cancelled s' ∧ Later s s') s := by
      change Good env cancelled (alone env reached s (.setReservation key id)).1 ∧
        Later s (alone env reached s (.setReservation key id)).1
      simp only [alone, TaskStore.serve]
      split
      · exact ⟨h, rfl, fun _ _ hj => hj⟩
      · exact ⟨good_reservations h _, rfl, fun _ _ hj => hj⟩
    refine Process.ends_bind hset ?_
    rintro r s₁ ⟨hgood, hlater⟩
    match r with
    | .error e => exact ⟨hgood, hlater⟩
    | .ok true => exact ⟨hgood, hlater⟩
    | .ok false =>
      have hget : (ask (.getReservation key) : Queueing J _).Ends (alone env reached)
          (fun _ s' => s' = s₁) s₁ := rfl
      refine Process.ends_bind hget ?_
      rintro r s₁ rfl
      match r with
      | .error e => exact ⟨hgood, hlater⟩
      | .ok none => exact (ih hgood).weaken fun _ _ h => ⟨h.1, hlater.trans h.2⟩
      | .ok (some existingId) =>
        change Process.Ends _ _ (if existingId = [] then _ else _) _
        split
        · exact (ih hgood).weaken fun _ _ h => ⟨h.1, hlater.trans h.2⟩
        · refine Process.ends_bind (ends_get hgood existingId) ?_
          rintro found s₂ ⟨hgood₂, hlater₂⟩
          cases found with
          | some j => exact ⟨hgood₂, hlater.trans hlater₂⟩
          | none =>
            have hdel : (ask (.delReservation key) : Queueing J _).Ends (alone env reached)
                (fun r s' => r = .ok () ∧ Good env cancelled s' ∧ Later s s') s₂ :=
              ⟨rfl, good_reservations hgood₂ _, (hlater.trans hlater₂).1, (hlater.trans hlater₂).2⟩
            refine Process.ends_bind hdel ?_
            rintro _ s₃ ⟨rfl, hgood₃, hlater₃⟩
            exact (ih hgood₃).weaken fun _ _ h => ⟨h.1, hlater₃.trans h.2⟩

/-- The tasks that are still cancelled after an enqueue of an id. -/
def stillCancelled (s s' : TaskStore J) (id : Text) (cancelled : List Text) : List Text :=
  if s'.lastEntry = s.lastEntry then cancelled else cancelled.filter (· ≠ id)

theorem ends_append (h : Good env cancelled s) (hk : s.objects[k]? = some t) (key : Text) :
    (append k key t.id : Queueing J QueueResult).Ends (alone env reached)
      (fun _ s' => Good env (cancelled.filter (· ≠ t.id)) s' ∧ s'.lastEntry = s.lastEntry + 1) s := by
  have hserve : alone env reached s (.xadd k) = ({ s with
      entries := s.entries ++ [⟨s.lastEntry + 1, t.toStream⟩]
      lastEntry := s.lastEntry + 1 }, .ok ()) := by
    simp only [alone, TaskStore.serve, hk]
  have hadd : (ask (.xadd k) : Queueing J _).Ends (alone env reached)
      (fun r s' => r = .ok () ∧ s' = { s with
        entries := s.entries ++ [⟨s.lastEntry + 1, t.toStream⟩]
        lastEntry := s.lastEntry + 1 }) s := by
    unfold Process.Ends ask Process.ask
    rw [Process.run_call, Process.run_ret, hserve]
    exact ⟨rfl, rfl⟩
  refine Process.ends_bind hadd ?_
  rintro _ _ ⟨rfl, rfl⟩
  refine Process.ends_bind (ends_writeHash (s := { s with
    entries := s.entries ++ [⟨s.lastEntry + 1, t.toStream⟩]
    lastEntry := s.lastEntry + 1 }) hk) ?_
  rintro _ _ rfl
  refine ⟨?_, rfl⟩
  have hadded := (good_add h t.toStream).subset fun id (hid : id ∈ cancelled.filter (· ≠ t.id)) =>
    (List.mem_filter.mp hid).1
  refine good_writeHash hadded (hadded.base.objects t (List.mem_of_getElem? hk)) ?_
  intro _
  refine ⟨⟨_, List.mem_append_right _ List.mem_cons_self, rfl⟩, ?_⟩
  simp

theorem ends_enqueue (h : Good env cancelled s) (args : EnqueueArgs J) :
    (StreamQueue.enqueue env args).Ends (alone env reached)
      (fun _ s' => Good env (stillCancelled s s' args.id cancelled) s') s := by
  refine Process.ends_bind (ends_clock s) ?_
  rintro now s rfl
  refine Process.ends_bind (ends_create _ s) ?_
  rintro _ _ ⟨rfl, rfl⟩
  have hcreated := good_create (t := QueueTask.create env.queueName args.taskType args.payload
    args.dedupKey (args.priority.getD env.priority) (args.maxAttempts.getD (max 1 env.maxAttempts))
    args.id now) h ⟨fun hne => absurd rfl hne, fun e _ he =>
      absurd he (env.streamIdOf_ne_nil e.number)⟩
  have hadded : ∀ s₁ : TaskStore J, Later s s₁ → Good env cancelled s₁ → ∀ key,
      s₁.objects[s.objects.length]? = some (QueueTask.create env.queueName args.taskType args.payload
        args.dedupKey (args.priority.getD env.priority)
        (args.maxAttempts.getD (max 1 env.maxAttempts)) args.id now) →
      (append s.objects.length key args.id : Queueing J QueueResult).Ends (alone env reached)
        (fun _ s' => Good env (stillCancelled s s' args.id cancelled) s') s₁ := by
    intro s₁ hlater hgood key hobject
    refine (ends_append hgood hobject key).weaken ?_
    rintro _ s' ⟨hgood', hlast⟩
    have hne : s'.lastEntry ≠ s.lastEntry := by
      have hsame := hlater.1
      omega
    rw [stillCancelled, if_neg hne]
    exact hgood'
  split
  · exact hadded _ (later_create _) hcreated _ (by simp)
  · refine Process.ends_bind (ends_reserveDedup hcreated args.dedupKey args.id 5) ?_
    rintro r s₁ ⟨hgood, hlater⟩
    have hall := (later_create _).trans hlater
    cases r with
    | reserved => exact hadded s₁ hall hgood _ (hlater.2 _ _ (by simp))
    | existing j =>
      change Good env (stillCancelled s s₁ args.id cancelled) s₁
      rw [stillCancelled, if_pos hall.1]
      exact hgood
    | failed =>
      change Good env (stillCancelled s s₁ args.id cancelled) s₁
      rw [stillCancelled, if_pos hall.1]
      exact hgood

/-! ## Claims -/

/-- The message is an entry's, and its task is not a cancelled one without a hash. -/
def Deliverable (env : StreamQueueSettings) (cancelled : List Text) (s : TaskStore J)
    (m : StreamMessage J) : Prop :=
  (∃ e ∈ s.entries, TaskStore.messageOf env e = m) ∧
    (m.2.taskId ∈ cancelled → (s.hash m.2.taskId).isSome)

/-- The objects are of tasks that were not cancelled. -/
def FreshTasks (cancelled : List Text) (s : TaskStore J) (ks : List ℕ) : Prop :=
  ∀ k ∈ ks, ∃ t, s.objects[k]? = some t ∧ t.id ∉ cancelled

/-- A message is read: its task, or what the stream says of it. -/
def readTask (s : TaskStore J) (m : StreamMessage J) : QueueTask J :=
  { (s.hash m.2.taskId).getD (QueueTask.fromStream m.2 m.1 s.now) with
    id := m.2.taskId
    streamId := m.1 }

theorem ends_hydrate (h : Good env cancelled s) (m : StreamMessage J) :
    (hydrate m).Ends (alone env reached) (fun t s' => t = readTask s m ∧ s' = s) s := by
  have hask : (ask (.hgetall m.2.taskId) : Queueing J _).Ends (alone env reached)
      (fun r s' => r = .ok (s.hash m.2.taskId) ∧ s' = s) s := ⟨rfl, rfl⟩
  refine Process.ends_bind hask ?_
  rintro _ s ⟨rfl, rfl⟩
  have hclock : (ask .clock : Queueing J _).Ends (alone env reached)
      (fun r s' => r = s.now ∧ s' = s) s := ⟨rfl, rfl⟩
  refine Process.ends_bind hclock ?_
  rintro _ s ⟨rfl, rfl⟩
  refine ⟨?_, rfl⟩
  cases hhash : s.hash m.2.taskId with
  | none =>
    simp only [readTask, hhash, Option.getD_none]
    change ({ QueueTask.fromStream m.2 m.1 s.now with
      id := if m.2.taskId = [] then m.2.taskId else m.2.taskId
      streamId := m.1 } : QueueTask J) = _
    rw [ite_self]
  | some t =>
    have hid := h.base.keyed _ t hhash
    simp only [readTask, hhash, Option.getD_some]
    change ({ t with
      id := if t.id = [] then m.2.taskId else t.id
      streamId := m.1 } : QueueTask J) = _
    rw [hid, ite_self]

theorem ends_finish (streamId : Text) (s : TaskStore J) :
    (finishStreamEntry streamId : Queueing J Unit).Ends (alone env reached)
      (fun _ s' => s' = s.dropEntry env streamId) s := rfl

/-- A message whose task is over is dropped. -/
theorem good_finish (h : Good env cancelled s) {e : StreamEntry J} (he : e ∈ s.entries)
    (hover : (readTask s (TaskStore.messageOf env e)).status.terminal = true) :
    Good env cancelled (s.dropEntry env (env.streamIdOf e.number)) := by
  refine good_drop h ?_
  intro e' he' hid t ht
  obtain rfl := h.base.eq_of_streamId he' he hid
  have hread : (readTask s (TaskStore.messageOf env e')).status = t.status := by
    simp only [readTask, TaskStore.messageOf, ht, Option.getD_some]
  rw [← hread]
  exact hover

/-- The other messages stay deliverable. -/
theorem deliverable_drop (h : Base env s) {e : StreamEntry J} (he : e ∈ s.entries)
    {m : StreamMessage J} (hm : Deliverable env cancelled s m) (hne : m.2.taskId ≠ e.fields.taskId) :
    Deliverable env cancelled (s.dropEntry env (env.streamIdOf e.number)) m := by
  obtain ⟨⟨e', he', rfl⟩, hhash⟩ := hm
  refine ⟨⟨e', List.mem_filter.mpr ⟨he', ?_⟩, rfl⟩, hhash⟩
  rw [decide_eq_true_eq]
  intro hid
  obtain rfl := h.eq_of_streamId he' he hid
  exact hne rfl

/-- A message whose task is not over is taken. -/
theorem good_take (h : Good env cancelled s) {e : StreamEntry J} (he : e ∈ s.entries)
    (hhash : e.fields.taskId ∈ cancelled → (s.hash e.fields.taskId).isSome)
    (hopen : (readTask s (TaskStore.messageOf env e)).status.terminal = false)
    (hid : t.id = e.fields.taskId) (hstream : t.streamId = env.streamIdOf e.number) :
    Good env cancelled (({ s with objects := s.objects ++ [t] } : TaskStore J).writeHash t) ∧
      t.id ∉ cancelled := by
  have hown : Own env s t := by
    refine ⟨fun _ => ⟨e.number, h.base.bounded e he, hstream.symm⟩, ?_⟩
    intro e' he' heq
    rw [hid, h.base.eq_of_streamId he' he (heq.trans hstream)]
  have hfree : t.id ∉ cancelled := by
    rw [hid]
    intro hmem
    obtain ⟨u, hu⟩ := Option.isSome_iff_exists.mp (hhash hmem)
    have hover := h.quiet _ hmem u hu
    have hread : (readTask s (TaskStore.messageOf env e)).status = u.status := by
      simp only [readTask, TaskStore.messageOf, hu, Option.getD_some]
    rw [hread, hover] at hopen
    cases hopen
  refine ⟨good_writeHash (good_create h hown) hown fun _ => ⟨⟨e, he, hid.symm⟩, hfree⟩, hfree⟩

/-- The loop of a claim keeps the invariant, and takes no cancelled task. -/
theorem ends_claimMessages (consumer : Text) (count : ℕ) (messages : List (StreamMessage J))
    (seen : List Text) (ks : List ℕ) (h : Good env cancelled s)
    (hmessages : ∀ m ∈ messages, m.2.taskId ∉ seen → Deliverable env cancelled s m)
    (hks : FreshTasks cancelled s ks) :
    (claimMessages env consumer count messages seen ks).Ends (alone env reached)
      (fun ks s' => Good env cancelled s' ∧ FreshTasks cancelled s' ks) s := by
  induction messages generalizing seen ks s with
  | nil => exact ⟨h, hks⟩
  | cons m rest ih =>
    have hrest : ∀ m' ∈ rest, m'.2.taskId ∉ seen → Deliverable env cancelled s m' :=
      fun m' hm' => hmessages m' (List.mem_cons_of_mem _ hm')
    rw [claimMessages]
    split
    · exact ih seen ks h hrest hks
    · rename_i hfresh
      obtain ⟨⟨e, he, hem⟩, hhash⟩ := hmessages m List.mem_cons_self fun hseen => hfresh (.inr hseen)
      have hlater : ∀ m' ∈ rest, m'.2.taskId ∉ m.2.taskId :: seen → Deliverable env cancelled s m' :=
        fun m' hm' hnot => hrest m' hm' fun hseen => hnot (List.mem_cons_of_mem _ hseen)
      subst hem
      refine Process.ends_bind (ends_hydrate h _) ?_
      rintro _ s ⟨rfl, rfl⟩
      split
      · rename_i hover
        refine Process.ends_bind (ends_finish _ s) ?_
        rintro _ _ rfl
        refine ih _ ks (good_finish h he hover) ?_ hks
        intro m' hm' hnot
        exact deliverable_drop h.base he (hlater m' hm' hnot) fun hsame => hnot (hsame ▸ List.mem_cons_self)
      · rename_i hopen
        refine Process.ends_bind (ends_clock s) ?_
        rintro now s rfl
        split
        · exact ih _ ks h hlater hks
        · refine Process.ends_bind (ends_create _ s) ?_
          rintro _ _ ⟨rfl, rfl⟩
          have hobject : ({ s with objects := s.objects ++ [taken env consumer now (readTask s
              (TaskStore.messageOf env e))] } : TaskStore J).objects[s.objects.length]? =
              some (taken env consumer now (readTask s (TaskStore.messageOf env e))) := by
            simp
          refine Process.ends_bind (ends_writeHash hobject) ?_
          rintro _ _ rfl
          obtain ⟨hgood, hfree⟩ := good_take
            (t := taken env consumer now (readTask s (TaskStore.messageOf env e))) h he hhash
            (Bool.eq_false_iff.mpr hopen) rfl rfl
          have hks' : FreshTasks cancelled (({ s with objects := s.objects ++ [taken env consumer now
              (readTask s (TaskStore.messageOf env e))] } : TaskStore J).writeHash
              (taken env consumer now (readTask s (TaskStore.messageOf env e))))
              (ks ++ [s.objects.length]) := by
            intro k hk
            rcases List.mem_append.mp hk with hk | hk
            · obtain ⟨u, hu, hunot⟩ := hks k hk
              exact ⟨u, (later_create _).2 k u hu, hunot⟩
            · obtain rfl := List.mem_singleton.mp hk
              exact ⟨_, hobject, hfree⟩
          split
          · exact ⟨hgood, hks'⟩
          · refine ih _ _ hgood ?_ hks'
            intro m' hm' hnot
            obtain ⟨hentry, hcancelled⟩ := hlater m' hm' hnot
            refine ⟨hentry, fun hmem => ?_⟩
            have hne : m'.2.taskId ≠ e.fields.taskId := fun hsame =>
              hnot (hsame ▸ List.mem_cons_self)
            rw [TaskStore.hash_writeHash]
            split_ifs with hsame
            · exact absurd hsame hne
            · exact hcancelled hmem

variable (env) in
/-- The stale entries that a claim takes over. -/
def staleOf (s : TaskStore J) (reached : List ℕ) (count : ℕ) : List PendingEntry :=
  (s.claimable env.retryIdle reached).take (max 1 count)

variable (env) in
/-- The messages of stale entries. -/
def staleMessages (s : TaskStore J) (reached : List ℕ) (count : ℕ) : List (StreamMessage J) :=
  (staleOf env s reached count).filterMap fun p => (s.entryOf p.number).map (TaskStore.messageOf env)

variable (env) in
/-- How many new entries a claim asks for. -/
def remaining (s : TaskStore J) (reached : List ℕ) (count : ℕ) : ℕ :=
  max 1 count - (staleMessages env s reached count).length

variable (env) in
/-- The messages that a claim is handed. -/
def handed (s : TaskStore J) (reached : List ℕ) (count : ℕ) : List (StreamMessage J) :=
  if remaining env s reached count = 0 then staleMessages env s reached count
  else staleMessages env s reached count ++
    (s.undelivered.take (max 1 (remaining env s reached count))).map (TaskStore.messageOf env)

theorem entry_of_handed {count : ℕ} {m : StreamMessage J} (hm : m ∈ handed env s reached count) :
    ∃ e ∈ s.entries, TaskStore.messageOf env e = m := by
  have hstale : m ∈ staleMessages env s reached count →
      ∃ e ∈ s.entries, TaskStore.messageOf env e = m := by
    intro hm
    obtain ⟨p, -, hp⟩ := List.mem_filterMap.mp hm
    obtain ⟨e, he, rfl⟩ := Option.map_eq_some_iff.mp hp
    exact ⟨e, List.mem_of_find?_eq_some he, rfl⟩
  unfold handed at hm
  split_ifs at hm
  · exact hstale hm
  · rcases List.mem_append.mp hm with hm | hm
    · exact hstale hm
    · obtain ⟨e, he, rfl⟩ := List.mem_map.mp hm
      exact ⟨e, (List.mem_filter.mp (List.mem_of_mem_take he)).1, rfl⟩

theorem ends_reclaimStale (consumer : Text) (count : ℕ) (s : TaskStore J) :
    (reclaimStale consumer count : Queueing J (Option (List (StreamMessage J)))).Ends
      (alone env reached) (fun r s' => r = some (staleMessages env s reached count) ∧
        s' = s.takeOver consumer (staleOf env s reached count)) s := ⟨rfl, rfl⟩

theorem ends_readNew (consumer : Text) (count : ℕ) (s : TaskStore J) :
    (readNew consumer count : Queueing J (Option (List (StreamMessage J)))).Ends
      (alone env reached) (fun r s' =>
        r = some ((s.undelivered.take (max 1 count)).map (TaskStore.messageOf env)) ∧
          s' = s.deliver consumer (s.undelivered.take (max 1 count))) s := ⟨rfl, rfl⟩

/-- What an operation executes: the tasks of the objects that a claim returns. -/
def executedOf (s' : TaskStore J) : QueueOp J → QueueResult → List Text
  | .claim _ _, .tasks ks => ks.filterMap fun k => (s'.objects[k]?).map QueueTask.id
  | _, _ => []

theorem not_cancelled_of_fresh {ks : List ℕ} (h : FreshTasks cancelled s ks) {op : QueueOp J}
    {id : Text} (hid : id ∈ executedOf s op (.tasks ks)) : id ∉ cancelled := by
  cases op with
  | claim consumer count =>
    obtain ⟨k, hk, hkid⟩ := List.mem_filterMap.mp hid
    obtain ⟨t, ht, hfree⟩ := h k hk
    rw [ht] at hkid
    obtain rfl := Option.some.inj hkid
    exact hfree
  | _ => exact absurd hid List.not_mem_nil

/-- A claim keeps the invariant, and takes no cancelled task. -/
theorem ends_claim (h : Good env cancelled s) (consumer : Text) (count : ℕ)
    (hsound : ∀ m ∈ handed env s reached count, m.2.taskId ∈ cancelled →
      (s.hash m.2.taskId).isSome) :
    (claim env consumer count : Queueing J QueueResult).Ends (alone env reached)
      (fun r s' => Good env cancelled s' ∧
        ∀ id ∈ executedOf s' (.claim consumer count) r, id ∉ cancelled) s := by
  refine Process.ends_bind (ends_reclaimStale consumer count s) ?_
  rintro _ _ ⟨rfl, rfl⟩
  have hgood := good_takeOver h consumer (staleOf env s reached count)
  have hdone : ∀ {messages : List (StreamMessage J)} {s₁ : TaskStore J}, Good env cancelled s₁ →
      (∀ m ∈ messages, Deliverable env cancelled s₁ m) →
      (claimMessages env consumer count messages [] [] >>= fun ks => pure (QueueResult.tasks ks) :
        Queueing J QueueResult).Ends (alone env reached) (fun r s' => Good env cancelled s' ∧
          ∀ id ∈ executedOf s' (.claim consumer count) r, id ∉ cancelled) s₁ := by
    intro messages s₁ hgood₁ hmessages
    refine Process.ends_bind (ends_claimMessages consumer count messages [] [] hgood₁
      (fun m hm _ => hmessages m hm) fun k hk => absurd hk List.not_mem_nil) ?_
    rintro ks s₂ ⟨hgood₂, hfresh⟩
    exact ⟨hgood₂, fun id hid => not_cancelled_of_fresh hfresh hid⟩
  have hdeliverable : ∀ m ∈ handed env s reached count, Deliverable env cancelled s m :=
    fun m hm => ⟨entry_of_handed hm, hsound m hm⟩
  by_cases hzero : remaining env s reached count = 0
  · have hhanded : handed env s reached count = staleMessages env s reached count := if_pos hzero
    change Process.Ends _ _ (if remaining env s reached count = 0 then _ else _) _
    rw [if_pos hzero]
    refine hdone hgood ?_
    rw [← hhanded]
    exact hdeliverable
  · have hhanded : handed env s reached count = staleMessages env s reached count ++
        (s.undelivered.take (max 1 (remaining env s reached count))).map
          (TaskStore.messageOf env) := if_neg hzero
    change Process.Ends _ _ (if remaining env s reached count = 0 then _ else _) _
    rw [if_neg hzero]
    refine Process.ends_bind (ends_readNew consumer (remaining env s reached count) _) ?_
    rintro _ _ ⟨rfl, rfl⟩
    refine hdone (good_deliver hgood consumer _) ?_
    intro m hm
    have hmem : m ∈ handed env s reached count := hhanded ▸ hm
    exact hdeliverable m hmem

/-! ## Runs -/

/-- An operation that runs alone, when it runs, and the stale entries that the server reaches. -/
structure AtomicMove (J : Type) where
  now : ℚ
  reached : List ℕ := []
  op : QueueOp J

/-- The store, and the tasks that were cancelled and not enqueued again. -/
structure Ledger (J : Type) where
  store : TaskStore J := {}
  cancelled : List Text := []

/-- The tasks that are cancelled after an operation. -/
def cancelledAfter (s s' : TaskStore J) (cancelled : List Text) : QueueOp J → List Text
  | .cancel k => ((s.objects[k]?).map QueueTask.id).toList ++ cancelled
  | .enqueue args => stillCancelled s s' args.id cancelled
  | _ => cancelled

variable (env) in
/-- An operation runs alone: its result, and the store afterwards. -/
def outcome (st : Ledger J) (move : AtomicMove J) : QueueResult × TaskStore J :=
  (move.op.program env).run (alone env move.reached) (st.store.tick move.now)

variable (env) in
/-- One operation. -/
def step (st : Ledger J) (move : AtomicMove J) : Ledger J where
  store := (outcome env st move).2
  cancelled :=
    cancelledAfter (st.store.tick move.now) (outcome env st move).2 st.cancelled move.op

variable (env) in
/-- The tasks that an operation executes. -/
def executed (st : Ledger J) (move : AtomicMove J) : List Text :=
  executedOf (outcome env st move).2 move.op (outcome env st move).1

/-- The task has an entry, and was not cancelled. -/
def Open (st : Ledger J) (t : QueueTask J) : Prop :=
  (∃ e ∈ st.store.entries, e.fields.taskId = t.id) ∧ t.id ∉ st.cancelled

instance (st : Ledger J) (t : QueueTask J) : Decidable (Open st t) := by
  unfold Open
  infer_instance

instance (s : TaskStore J) (t : QueueTask J) (retryable : Bool) : Decidable (Retries s t retryable) := by
  unfold Retries
  infer_instance

variable (env) in
/-- A failure puts back, and a heartbeat renews, only what has an entry and was not cancelled, and a
claim is not handed a cancelled task whose hash is gone. -/
def Sound (st : Ledger J) (move : AtomicMove J) : Prop :=
  match move.op with
  | .fail k _ retryable => ∀ t ∈ st.store.objects[k]?,
      Retries (st.store.tick move.now) t retryable → Open st t
  | .heartbeat k => ∀ t ∈ st.store.objects[k]?, t.streamId ≠ [] → t.status.terminal = false →
      Open st t
  | .claim _ count => ∀ m ∈ handed env (st.store.tick move.now) move.reached count,
      m.2.taskId ∈ st.cancelled → ((st.store.tick move.now).hash m.2.taskId).isSome
  | _ => True

instance (st : Ledger J) (move : AtomicMove J) : Decidable (Sound env st move) := by
  unfold Sound
  split
  · infer_instance
  · infer_instance
  · infer_instance
  · infer_instance

/-- **One operation** that meets the condition keeps the invariant, and executes no cancelled
task. -/
theorem good_step {st : Ledger J} (h : Good env st.cancelled st.store) {move : AtomicMove J}
    (hsound : Sound env st move) :
    Good env (step env st move).cancelled (step env st move).store ∧
      ∀ id ∈ executed env st move, id ∉ st.cancelled := by
  obtain ⟨now, reached, op⟩ := move
  have hgood := good_tick h now
  cases op with
  | enqueue args => exact ⟨ends_enqueue hgood args, fun id hid => absurd hid List.not_mem_nil⟩
  | claim consumer count => exact ends_claim hgood consumer count hsound
  | heartbeat k => exact ⟨ends_heartbeat hgood hsound, fun id hid => absurd hid List.not_mem_nil⟩
  | ack k result => exact ⟨ends_ack hgood result, fun id hid => absurd hid List.not_mem_nil⟩
  | fail k error retryable =>
    exact ⟨ends_fail hgood error retryable hsound, fun id hid => absurd hid List.not_mem_nil⟩
  | cancel k => exact ⟨ends_cancel hgood, fun id hid => absurd hid List.not_mem_nil⟩
  | get id =>
    have hget : (QueueOp.program env (.get id : QueueOp J)).Ends (alone env reached)
        (fun _ s' => Good env st.cancelled s') (st.store.tick now) :=
      Process.ends_bind (ends_get hgood id) fun _ _ h => h.1
    exact ⟨hget, fun id hid => absurd hid List.not_mem_nil⟩

theorem good_empty : Good env [] ({} : TaskStore J) where
  base := by
    refine ⟨?_, List.Pairwise.nil, ?_, le_rfl, ?_, ?_, ?_⟩
    · intro id t ht
      cases ht
    · exact fun e he => absurd he List.not_mem_nil
    · exact fun e he => absurd he List.not_mem_nil
    · exact fun t ht => absurd ht List.not_mem_nil
    · intro id t ht
      cases ht
  entered id t ht := by cases ht
  quiet id hid := absurd hid List.not_mem_nil

/-- **Status and delivery agree**: in a run whose operations meet the condition, every task whose
hash says that it is not over has an entry that is pending or not delivered yet, no cancelled task
comes back to a status that is not terminal, and none is executed. -/
theorem delivered_or_over (moves : List (AtomicMove J))
    (hsound : Run.Along (step env) (Sound env) {} moves) :
    (∀ n, Claimable (Run.stateAt (step env) {} moves n).store ∧
      Quiet (Run.stateAt (step env) {} moves n).cancelled
        (Run.stateAt (step env) {} moves n).store) ∧
      Run.Along (step env) (fun st move => ∀ id ∈ executed env st move, id ∉ st.cancelled) {}
        moves := by
  constructor
  · intro n
    have hgood : Good env (Run.stateAt (step env) {} moves n).cancelled
        (Run.stateAt (step env) {} moves n).store :=
      Run.invariant_along (fun st : Ledger J => Good env st.cancelled st.store) good_empty
        (hsound.take n) fun st move h hmove => (good_step h hmove).1
    exact ⟨hgood.claimable, hgood.quiet⟩
  · exact Run.Along.of_invariant (fun st : Ledger J => Good env st.cancelled st.store) good_empty
      hsound (fun st move h hmove => (good_step h hmove).1) fun st move h hmove => (good_step h hmove).2

/-- A task is enqueued, claimed, and handled in some way. -/
def handled (op : QueueOp Unit) : List (AtomicMove Unit) :=
  [⟨0, [], .enqueue { taskType := of "download", payload := (), id := of "t" }⟩,
    ⟨1, [], .claim (of "w") 1⟩, ⟨2, [], op⟩, ⟨3, [], .fail 1 (of "timeout") true⟩]

theorem delivered_or_over_handled :
    (∀ n, Claimable (Run.stateAt (step plainStreamQueue) {} (handled (.get (of "t"))) n).store ∧
      Quiet (Run.stateAt (step plainStreamQueue) {} (handled (.get (of "t"))) n).cancelled
        (Run.stateAt (step plainStreamQueue) {} (handled (.get (of "t"))) n).store) ∧
      Run.Along (step plainStreamQueue) (fun st move => ∀ id ∈ executed plainStreamQueue st move,
        id ∉ st.cancelled) {} (handled (.get (of "t"))) :=
  delivered_or_over (handled (.get (of "t"))) (by decide +kernel)

/-- The task is cancelled while its worker runs, and then the worker reports a failure: the hash
says that the task is queued, and no entry is left. -/
theorem cancelled_stranded :
    ¬((∀ n, Claimable (Run.stateAt (step plainStreamQueue) {} (handled (.cancel 1)) n).store ∧
      Quiet (Run.stateAt (step plainStreamQueue) {} (handled (.cancel 1)) n).cancelled
        (Run.stateAt (step plainStreamQueue) {} (handled (.cancel 1)) n).store) ∧
      Run.Along (step plainStreamQueue) (fun st move => ∀ id ∈ executed plainStreamQueue st move,
        id ∉ st.cancelled) {} (handled (.cancel 1))) := by
  rintro ⟨h, -⟩
  have hstatus : ((Run.stateAt (step plainStreamQueue) {} (handled (.cancel 1)) 4).store.hash
      (of "t")).map QueueTask.status = some .queued := by decide +kernel
  have hempty : (Run.stateAt (step plainStreamQueue) {} (handled (.cancel 1)) 4).store.entries = [] := by
    decide +kernel
  obtain ⟨t, ht, hqueued⟩ := Option.map_eq_some_iff.mp hstatus
  obtain ⟨e, he, -⟩ := (h 4).1 (of "t") t ht (by rw [hqueued]; rfl)
  rw [hempty] at he
  exact absurd he List.not_mem_nil

end Revival

end WolfNas
