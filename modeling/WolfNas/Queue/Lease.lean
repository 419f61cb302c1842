import WolfNas.Queue.Dedup

/-!
# Leases

A consumer that takes a task writes a lease into its hash, and heartbeats extend it.  What a claim
is delivered depends on how long an entry was idle, not on the lease: a task is stolen where the
lease lasts longer than that.

## Main definitions

* `TaskStore.LeasedToOther` — another consumer has a lease of the task that has not expired.
* `Lease.Note`, `Lease.shop` — what is noted of a claim, and the processes.
* `Lease.Kept` — the condition on a call.
* `Lease.Unstolen` — a claim that takes a task does not take it from another consumer.

## Main results

* `Lease.follows_claim` — a claim takes the tasks that it was delivered.
* `Lease.unstolen` — in a run that meets the condition, no claim takes a leased task.
-/

namespace WolfNas

open Text

namespace TaskStore

variable {J : Type} (s : TaskStore J)

/-- The lease in a hash is another consumer's, and has not expired at a time. -/
def HeldByOther (now : ℚ) (consumer : Text) (t : QueueTask J) : Prop :=
  t.leaseOwner ≠ [] ∧ t.leaseOwner ≠ consumer ∧ now < t.leaseUntil

instance (now : ℚ) (consumer : Text) (t : QueueTask J) : Decidable (HeldByOther now consumer t) := by
  unfold HeldByOther
  infer_instance

/-- Another consumer has a lease of the task that has not expired. -/
def LeasedToOther (id consumer : Text) : Prop := ∃ t ∈ s.hash id, HeldByOther s.now consumer t

instance (id consumer : Text) : Decidable (s.LeasedToOther id consumer) := by
  unfold LeasedToOther
  infer_instance

variable {s}

/-- A lease that is not another's stays so, where the hash is the same or gone. -/
theorem LeasedToOther.mono {s' : TaskStore J} {id consumer : Text}
    (h : s'.LeasedToOther id consumer) (hnow : s.now ≤ s'.now)
    (hhash : ∀ t, s'.hash id = some t → s.hash id = some t) : s.LeasedToOther id consumer := by
  obtain ⟨t, ht, howner, hother, hlt⟩ := h
  exact ⟨t, hhash t ht, howner, hother, hnow.trans_lt hlt⟩

end TaskStore

namespace Lease

open StreamQueue

variable {J : Type} (env : StreamQueueSettings)

/-- What is noted of a claim: the tasks that it has in hand, the one it reads, and the object that
it made last, with its task. -/
structure Note where
  hand : List Text := []
  current : Text := []
  object : Option (ℕ × Text) := none
  deriving DecidableEq

/-- The tasks of the messages that a claim is delivered. -/
def tasksOf (messages : List (StreamMessage J)) : List Text := messages.map fun m => m.2.taskId

/-- A task is in a claim's hand from its delivery to the call that writes its hash. -/
def noted (l : Note) : (c : RedisCall J) → c.Reply → Note
  | .xautoclaim _ _, .ok messages => { l with hand := tasksOf messages ++ l.hand }
  | .xclaim _ _, .ok messages => { l with hand := tasksOf messages ++ l.hand }
  | .xreadgroup _ _, .ok messages => { l with hand := tasksOf messages ++ l.hand }
  | .hgetall id, .ok (some t) => { l with hand := t.id :: l.hand, current := id }
  | .hgetall id, _ => { l with current := id }
  | .create t, k => { l with object := some (k, t.id) }
  | .hset _, _ => { l with hand := l.hand.filter (· ≠ l.current) }
  | _, _ => l

/-- The processes of the queue. -/
def shop : Workshop (TaskStore J) (QueueOp J) RedisWeather ℚ Note (RedisCall J)
    (RedisCall.Reply J) QueueResult where
  exec s w c := some (s.exec env w c)
  drift := TaskStore.tick
  program := QueueOp.program env
  first _ := {}
  noted _ := noted

/-- The calls that leave ids alone, and no hash without time to live. -/
def Tame : RedisCall J → Prop
  | .assign _ f => ∀ t, (f t).id = t.id
  | .expire _ => 0 < env.taskTtlSeconds
  | _ => True

/-- What the calls of an operation are. -/
def Allowed (op : QueueOp J) (l : Note) (c : RedisCall J) : Prop :=
  Tame env c ∧ match op with
    | .claim _ _ =>
      match c with
      | .hgetall id => id ∈ l.hand
      | .create t => t.id ∈ l.hand
      | .hset k => ∃ id ∈ l.hand, l.object = some (k, id)
      | _ => True
    | _ => True

/-- The messages that a call delivers. -/
def delivered (s : TaskStore J) (w : RedisWeather) (c : RedisCall J) : List (StreamMessage J) :=
  match c with
  | .xautoclaim consumer count => ((s.serve env w (.xautoclaim consumer count)).2).toOption.getD []
  | .xclaim consumer ids => ((s.serve env w (.xclaim consumer ids)).2).toOption.getD []
  | .xreadgroup consumer count => ((s.serve env w (.xreadgroup consumer count)).2).toOption.getD []
  | _ => []

/-- The consumer of a claim that has the task in hand. -/
def holder (id : Text) : QueueOp J × Note → Option Text
  | (.claim consumer _, l) => if id ∈ l.hand then some consumer else none
  | _ => none

/-- A claim is not delivered a task that is leased to another consumer, and no lease of another
consumer is written while a claim has the task in hand. -/
def Kept (s : TaskStore J) (ns : List (QueueOp J × Note)) (w : RedisWeather) (_ : ℕ)
    (op : QueueOp J) (_ : Note) (c : RedisCall J) : Prop :=
  (match op with
    | .claim consumer _ => ∀ m ∈ delivered env s w c, ¬s.LeasedToOther m.2.taskId consumer
    | _ => True) ∧
  match c with
    | .hset k => ∀ t ∈ s.objects[k]?, ∀ e ∈ ns, ∀ consumer ∈ holder t.id e,
        ¬TaskStore.HeldByOther s.now consumer t.stored
    | _ => True

/-- The consumer of a claim. -/
def claimant : QueueOp J → Option Text
  | .claim consumer _ => some consumer
  | _ => none

/-- The object whose hash a call writes. -/
def written : RedisCall J → Option ℕ
  | .hset k => some k
  | _ => none

instance (s : TaskStore J) (ns : List (QueueOp J × Note)) (w : RedisWeather) (i : ℕ)
    (op : QueueOp J) (l : Note) (c : RedisCall J) : Decidable (Kept env s ns w i op l c) :=
  decidable_of_iff ((∀ consumer ∈ claimant op, ∀ m ∈ delivered env s w c,
      ¬s.LeasedToOther m.2.taskId consumer) ∧
    ∀ k ∈ written c, ∀ t ∈ s.objects[k]?, ∀ e ∈ ns, ∀ consumer ∈ holder t.id e,
      ¬TaskStore.HeldByOther s.now consumer t.stored)
    (and_congr (by cases op <;> simp [claimant]) (by cases c <;> simp [written]))

/-- The tasks in a claim's hand are not leased to another consumer, the object that it made last is
the task that it noted, and hashes are where they belong. -/
structure Inv (s : TaskStore J) (ns : List (QueueOp J × Note)) : Prop where
  free : ∀ e ∈ ns, ∀ id, ∀ consumer ∈ holder id e, ¬s.LeasedToOther id consumer
  created : ∀ e ∈ ns, ∀ k id, e.2.object = some (k, id) → ∃ t, s.objects[k]? = some t ∧ t.id = id
  keyed : ∀ id t, s.hash id = some t → t.id = id

variable {env} {s s' : TaskStore J} {ns : List (QueueOp J × Note)} {op : QueueOp J} {l l' : Note}
  {i : ℕ} {w : RedisWeather} {c : RedisCall J}

theorem holder_eq_some {id consumer : Text} {e : QueueOp J × Note} (h : holder id e = some consumer) :
    (∃ count, e.1 = .claim consumer count) ∧ id ∈ e.2.hand := by
  obtain ⟨op, l⟩ := e
  cases op with
  | claim consumer' count =>
    simp only [holder] at h
    split_ifs at h with hmem
    obtain rfl := Option.some.inj h
    exact ⟨⟨count, rfl⟩, hmem⟩
  | _ => cases h

theorem holder_claim {id consumer : Text} {count : ℕ} (hmem : id ∈ l.hand) :
    holder id ((.claim consumer count : QueueOp J), l) = some consumer := if_pos hmem

/-- Hashes stay or go, and objects stay. -/
theorem Inv.frame (h : Inv s ns) (hobjects : s'.objects = s.objects) (hnow : s.now ≤ s'.now)
    (hhash : ∀ id t, s'.hash id = some t → s.hash id = some t) : Inv s' ns where
  free e he id consumer hholder hleased :=
    h.free e he id consumer hholder (hleased.mono hnow (hhash id))
  created e he k id hk := by
    rw [hobjects]
    exact h.created e he k id hk
  keyed id t ht := h.keyed id t (hhash id t ht)

/-- The note of a worker changes. -/
theorem Inv.note (h : Inv s ns)
    (hhand : ∀ consumer count, op = .claim consumer count → ∀ id ∈ l'.hand,
      ¬s.LeasedToOther id consumer)
    (hobject : ∀ k id, l'.object = some (k, id) → ∃ t, s.objects[k]? = some t ∧ t.id = id) :
    Inv s (ns.set i (op, l')) where
  free e he id consumer hholder := by
    rcases List.mem_or_eq_of_mem_set he with he | rfl
    · exact h.free e he id consumer hholder
    · obtain ⟨⟨count, hop⟩, hmem⟩ := holder_eq_some hholder
      exact hhand consumer count hop id hmem
  created e he k id hk := by
    rcases List.mem_or_eq_of_mem_set he with he | rfl
    · exact h.created e he k id hk
    · exact hobject k id hk
  keyed := h.keyed

/-- What a claim has in hand is not leased to another consumer. -/
theorem Inv.hand {consumer : Text} {count : ℕ} (h : Inv s ns)
    (hi : ns[i]? = some (.claim consumer count, l)) {id : Text} (hid : id ∈ l.hand) :
    ¬s.LeasedToOther id consumer :=
  h.free _ (List.mem_of_getElem? hi) id consumer (holder_claim hid)

/-- A note that has less in hand. -/
theorem Inv.lower (h : Inv s ns) (hi : ns[i]? = some (op, l)) (hhand : ∀ id ∈ l'.hand, id ∈ l.hand)
    (hobject : l'.object = l.object) : Inv s (ns.set i (op, l')) := by
  refine h.note ?_ ?_
  · rintro consumer count rfl id hid
    exact h.hand hi (hhand id hid)
  · intro k id hk
    rw [hobject] at hk
    exact h.created _ (List.mem_of_getElem? hi) k id hk

/-- A claim is delivered tasks that are not leased to another consumer. -/
theorem Inv.deliver (h : Inv s ns) (hi : ns[i]? = some (op, l)) {messages : List (StreamMessage J)}
    (hnew : ∀ consumer count, op = .claim consumer count → ∀ m ∈ messages,
      ¬s.LeasedToOther m.2.taskId consumer) (hhand : l'.hand = tasksOf messages ++ l.hand)
    (hobject : l'.object = l.object) : Inv s (ns.set i (op, l')) := by
  refine h.note ?_ ?_
  · rintro consumer count rfl id hid
    rw [hhand] at hid
    rcases List.mem_append.mp hid with hid | hid
    · obtain ⟨m, hm, rfl⟩ := List.mem_map.mp hid
      exact hnew consumer count rfl m hm
    · exact h.hand hi hid
  · intro k id hk
    rw [hobject] at hk
    exact h.created _ (List.mem_of_getElem? hi) k id hk

theorem inv_create (h : Inv s ns) (t : QueueTask J) :
    Inv { s with objects := s.objects ++ [t] } ns where
  free := h.free
  created e he k id hk := by
    obtain ⟨u, hu, hid⟩ := h.created e he k id hk
    refine ⟨u, ?_, hid⟩
    rw [List.getElem?_append_left (List.getElem?_eq_some_iff.mp hu).1]
    exact hu
  keyed := h.keyed

theorem inv_assign (h : Inv s ns) (k : ℕ) {f : QueueTask J → QueueTask J}
    (hf : ∀ t, (f t).id = t.id) : Inv { s with objects := s.objects.modify k f } ns where
  free := h.free
  created e he j id hj := by
    obtain ⟨u, hu, hid⟩ := h.created e he j id hj
    by_cases hkj : k = j
    · exact ⟨f u, by simp [hu, hkj], (hf u).trans hid⟩
    · exact ⟨u, by simp [hu, hkj], hid⟩
  keyed := h.keyed

/-- A hash is written whose lease is no other consumer's for those that have the task in hand. -/
theorem inv_writeHash (h : Inv s ns) (t : QueueTask J)
    (hlease : ∀ e ∈ ns, ∀ consumer ∈ holder t.id e,
      ¬TaskStore.HeldByOther s.now consumer t.stored) : Inv (s.writeHash t) ns where
  free e he id consumer hholder hleased := by
    obtain ⟨u, hu, hheld⟩ := hleased
    rw [Option.mem_def, TaskStore.hash_writeHash] at hu
    split_ifs at hu with hid
    · subst hid
      obtain rfl := Option.some.inj hu
      exact hlease e he consumer hholder hheld
    · exact h.free e he id consumer hholder ⟨u, hu, hheld⟩
  created := h.created
  keyed id u hu := by
    rw [TaskStore.hash_writeHash] at hu
    split_ifs at hu with hid
    · obtain rfl := Option.some.inj hu
      exact hid.symm
    · exact h.keyed id u hu

/-- A call that is served keeps the invariant. -/
theorem inv_serve (h : Inv s ns) (hallowed : Allowed env op l c) (hkept : Kept env s ns w i op l c) :
    Inv (s.serve env w c).1 ns := by
  cases c with
  | create t => exact inv_create h t
  | assign k f => exact inv_assign h k hallowed.1
  | setReservation key id =>
    simp only [TaskStore.serve]
    split_ifs
    · exact h
    · exact h.frame rfl le_rfl fun _ _ ht => ht
    · exact h.frame rfl le_rfl fun _ _ ht => ht
  | xadd k =>
    simp only [TaskStore.serve]
    split
    · exact h
    · exact h.frame rfl le_rfl fun _ _ ht => ht
  | xaddDead k error =>
    simp only [TaskStore.serve]
    split
    · exact h
    · exact h.frame rfl le_rfl fun _ _ ht => ht
  | hset k =>
    simp only [TaskStore.serve]
    split
    · exact h
    · rename_i t ht
      exact inv_writeHash h t (hkept.2 t ht)
  | expire id =>
    refine h.frame ?_ ?_ ?_
    · simp only [TaskStore.serve, TaskStore.expireHash]
      split
      · rfl
      · rfl
    · simp only [TaskStore.serve, TaskStore.expireHash]
      split
      · exact le_rfl
      · exact le_rfl
    · intro id' t ht
      rw [← TaskStore.hash_expireHash id id' hallowed.1]
      exact ht
  | _ => exact h.frame rfl le_rfl fun _ _ ht => ht

/-- What is noted of a call that was served is so. -/
theorem inv_noted (h : Inv s ns) (hi : ns[i]? = some (op, l)) (hallowed : Allowed env op l c)
    (hkept : Kept env s ns w i op l c) (hserved : Inv (s.serve env w c).1 ns) :
    Inv (s.serve env w c).1 (ns.set i (op, noted l c (s.serve env w c).2)) := by
  cases c with
  | xautoclaim consumer count =>
    refine hserved.deliver hi ?_ rfl rfl
    rintro consumer' count' rfl m hm hleased
    exact hkept.1 m hm hleased
  | xclaim consumer ids =>
    refine hserved.deliver hi ?_ rfl rfl
    rintro consumer' count' rfl m hm hleased
    exact hkept.1 m hm hleased
  | xreadgroup consumer count =>
    refine hserved.deliver hi ?_ rfl rfl
    rintro consumer' count' rfl m hm hleased
    exact hkept.1 m hm hleased
  | hgetall id =>
    cases hhash : s.hash id with
    | none =>
      have hnote : noted l (.hgetall id : RedisCall J) (.ok (s.hash id)) = { l with current := id } := by
        rw [hhash]
        rfl
      simp only [TaskStore.serve, hnote]
      exact hserved.lower hi (fun _ h => h) rfl
    | some t =>
      have hnote : noted l (.hgetall id : RedisCall J) (.ok (s.hash id)) =
          { l with hand := t.id :: l.hand, current := id } := by
        rw [hhash]
        rfl
      simp only [TaskStore.serve, hnote]
      refine hserved.note ?_ ?_
      · rintro consumer count rfl id' hid'
        rcases List.mem_cons.mp hid' with rfl | hid'
        · rw [h.keyed id t hhash]
          exact h.hand hi hallowed.2
        · exact h.hand hi hid'
      · exact fun k id' hk => h.created _ (List.mem_of_getElem? hi) k id' hk
  | create t =>
    refine hserved.note ?_ ?_
    · rintro consumer count rfl id hid
      exact hserved.hand hi hid
    · intro k id hk
      obtain ⟨rfl, rfl⟩ := Prod.mk.inj (Option.some.inj hk)
      exact ⟨t, by simp [TaskStore.serve], rfl⟩
  | hset k => exact hserved.lower hi (fun _ hid => (List.mem_filter.mp hid).1) rfl
  | _ => exact hserved.lower hi (fun _ hid => hid) rfl

/-- A call that failed has less in hand. -/
theorem noted_failure {e : RedisError} {r : c.Reply} (h : TaskStore.failure e c = some r) :
    (∀ id ∈ (noted l c r).hand, id ∈ l.hand) ∧ (noted l c r).object = l.object := by
  cases c with
  | clock => cases h
  | create t => cases h
  | load k => cases h
  | assign k f => cases h
  | hset k => exact ⟨fun _ hid => (List.mem_filter.mp hid).1, rfl⟩
  | _ =>
    obtain rfl := Option.some.inj h
    exact ⟨fun _ hid => hid, rfl⟩

/-- A call, however it is answered, keeps the invariant. -/
theorem inv_call (h : Inv s ns) (hi : ns[i]? = some (op, l)) (hallowed : Allowed env op l c)
    (hkept : Kept env s ns w i op l c) :
    Inv (s.exec env w c).1 (ns.set i (op, noted l c (s.exec env w c).2)) := by
  have hserved := inv_serve h hallowed hkept
  rcases s.exec_cases env w c with hexec | ⟨e, r, hr, hexec | hexec⟩
  · rw [hexec]
    exact inv_noted h hi hallowed hkept hserved
  · rw [hexec]
    exact h.lower hi (noted_failure hr).1 (noted_failure hr).2
  · rw [hexec]
    exact hserved.lower hi (noted_failure hr).1 (noted_failure hr).2

/-! ## Processes -/

/-- Every call of the process is allowed. -/
def Follows (env : StreamQueueSettings) {α : Type} (op : QueueOp J) (Q : Note → α → Prop) (l : Note)
    (x : Queueing J α) : Prop := x.Obeys (Allowed env op) noted Q l

theorem follows_bind {α β : Type} {x : Queueing J α} {f : α → Queueing J β} {Q : Note → α → Prop}
    {Q' : Note → β → Prop} (hx : Follows env op Q l x)
    (hf : ∀ l a, Q l a → Follows env op Q' l (f a)) : Follows env op Q' l (x >>= f) :=
  Process.obeys_bind (hx.weaken hf)

/-- A call of an operation, and what follows. -/
theorem follows_ask {α : Type} {f : c.Reply → Queueing J α} {Q : Note → α → Prop}
    (hc : Allowed env op l c) (hf : ∀ r, Follows env op Q (noted l c r) (f r)) :
    Follows env op Q l (ask c >>= f) := ⟨hc, hf⟩

variable {consumer : Text} {count : ℕ}

/-- A message is read whose task is in hand; then the task is in hand. -/
theorem follows_hydrate (message : StreamMessage J) (hmem : message.2.taskId ∈ l.hand) :
    Follows env (.claim consumer count)
      (fun l' t => t.id ∈ l'.hand ∧ l'.current = message.2.taskId ∧ ∀ id ∈ l.hand, id ∈ l'.hand) l
      (hydrate message) := by
  refine follows_ask ⟨trivial, hmem⟩ ?_
  intro r
  refine follows_ask ⟨trivial, trivial⟩ fun now => ?_
  match r with
  | .error e =>
    refine ⟨?_, rfl, fun _ hid => hid⟩
    change (if message.2.taskId = [] then message.2.taskId else message.2.taskId) ∈ l.hand
    rw [ite_self]
    exact hmem
  | .ok none =>
    refine ⟨?_, rfl, fun _ hid => hid⟩
    change (if message.2.taskId = [] then message.2.taskId else message.2.taskId) ∈ l.hand
    rw [ite_self]
    exact hmem
  | .ok (some t) =>
    refine ⟨?_, rfl, fun _ hid => List.mem_cons_of_mem _ hid⟩
    change (if t.id = [] then message.2.taskId else t.id) ∈ t.id :: l.hand
    split_ifs
    · exact List.mem_cons_of_mem _ hmem
    · exact List.mem_cons_self

theorem follows_removeEntry (streamId : Text) :
    Follows env (.claim consumer count) (fun l' _ => l' = l) l
      (removeEntry streamId : Queueing J Bool) := by
  refine follows_ask ⟨trivial, trivial⟩ ?_
  intro r
  cases r with
  | error e => rfl
  | ok u =>
    refine follows_ask ⟨trivial, trivial⟩ ?_
    intro r
    cases r with
    | error e => rfl
    | ok u => rfl

/-- The messages of a claim that it has not seen are in its hand. -/
theorem follows_claimMessages (messages : List (StreamMessage J)) (seen : List Text) (ks : List ℕ)
    (hmem : ∀ m ∈ messages, m.2.taskId ∈ seen ∨ m.2.taskId ∈ l.hand) :
    Follows env (.claim consumer count) (fun _ _ => True) l
      (claimMessages env consumer count messages seen ks) := by
  induction messages generalizing seen ks l with
  | nil => trivial
  | cons message rest ih =>
    have hrest : ∀ m ∈ rest, m.2.taskId ∈ seen ∨ m.2.taskId ∈ l.hand :=
      fun m hm => hmem m (List.mem_cons_of_mem _ hm)
    rw [claimMessages]
    split
    · exact ih _ _ hrest
    · rename_i hfresh
      have hin : message.2.taskId ∈ l.hand :=
        (hmem message List.mem_cons_self).resolve_left fun h => hfresh (.inr h)
      refine follows_bind (follows_hydrate message hin) ?_
      rintro l₁ t ⟨ht, hcurrent, hkept⟩
      have hlater : ∀ m ∈ rest, m.2.taskId ∈ message.2.taskId :: seen ∨ m.2.taskId ∈ l₁.hand := by
        intro m hm
        rcases hrest m hm with h | h
        · exact .inl (List.mem_cons_of_mem _ h)
        · exact .inr (hkept _ h)
      split
      · refine follows_bind (Q := fun l' _ => l' = l₁) ?_ ?_
        · exact follows_bind (follows_removeEntry message.1) fun _ _ h => h
        · rintro _ _ rfl
          exact ih _ _ hlater
      · refine follows_ask ⟨trivial, trivial⟩ fun now => ?_
        split
        · exact ih _ _ hlater
        · refine follows_ask ⟨trivial, ht⟩ fun k => ?_
          refine follows_ask ⟨trivial, t.id, ht, rfl⟩ fun r => ?_
          have hleft : ∀ m ∈ rest, m.2.taskId ∈ message.2.taskId :: seen ∨
              m.2.taskId ∈ l₁.hand.filter (· ≠ l₁.current) := by
            intro m hm
            by_cases hsame : m.2.taskId = message.2.taskId
            · exact .inl (hsame ▸ List.mem_cons_self)
            · rcases hlater m hm with h | h
              · exact .inl h
              · refine .inr (List.mem_filter.mpr ⟨h, ?_⟩)
                simpa [hcurrent] using hsame
          change Follows env (.claim consumer count) _ _ (if max 1 count ≤ ks.length + 1 then _ else _)
          split
          · trivial
          · exact ih _ _ hleft

/-- What is delivered is in hand. -/
def InHand (l : Note) (messages : List (StreamMessage J)) : Prop :=
  ∀ m ∈ messages, m.2.taskId ∈ l.hand

theorem inHand_delivered (messages : List (StreamMessage J)) :
    InHand { l with hand := tasksOf messages ++ l.hand } messages := by
  intro m hm
  exact List.mem_append_left _ (List.mem_map_of_mem hm)

theorem follows_reclaimStale :
    Follows env (.claim consumer count)
      (fun l' stale => ∀ messages, stale = some messages → InHand l' messages) l
      (reclaimStale consumer count : Queueing J (Option (List (StreamMessage J)))) := by
  refine follows_ask ⟨trivial, trivial⟩ ?_
  intro r
  match r with
  | .ok messages =>
    intro _ h
    obtain rfl := Option.some.inj h
    exact inHand_delivered messages
  | .error .other =>
    rintro _ h
    cases h
  | .error .response =>
    have hfallback : Follows env (.claim consumer count) (fun l' messages => InHand l' messages) l
        (reclaimFallback consumer count : Queueing J (List (StreamMessage J))) := by
      refine follows_ask ⟨trivial, trivial⟩ ?_
      intro r
      cases r with
      | error e => exact fun _ hm => absurd hm List.not_mem_nil
      | ok ids =>
        dsimp only
        split
        · exact fun _ hm => absurd hm List.not_mem_nil
        · refine follows_ask ⟨trivial, trivial⟩ ?_
          intro r
          cases r with
          | error e => exact fun _ hm => absurd hm List.not_mem_nil
          | ok messages => exact inHand_delivered messages
    refine follows_bind hfallback ?_
    intro l' messages h _ heq
    obtain rfl := Option.some.inj heq
    exact h

/-- A claim takes the tasks that it has in hand. -/
theorem follows_claim :
    Follows env (.claim consumer count) (fun _ _ => True) {}
      (StreamQueue.claim env consumer count : Queueing J QueueResult) := by
  refine follows_bind follows_reclaimStale ?_
  intro l stale hstale
  cases stale with
  | none => trivial
  | some stale =>
    have hin : InHand l stale := hstale stale rfl
    dsimp only
    split
    · refine follows_bind (follows_claimMessages stale [] [] ?_) fun _ _ _ => trivial
      exact fun m hm => .inr (hin m hm)
    · refine follows_bind (Q := fun l' new => ∀ messages, new = some messages → InHand l' (stale ++ messages)) ?_ ?_
      · refine follows_ask ⟨trivial, trivial⟩ ?_
        intro r
        cases r with
        | error e =>
          rintro _ h
          cases h
        | ok new =>
          intro _ heq m hm
          obtain rfl := Option.some.inj heq
          rcases List.mem_append.mp hm with hm | hm
          · exact List.mem_append_right _ (hin m hm)
          · exact inHand_delivered new m hm
      · intro l' new hnew
        cases new with
        | none => trivial
        | some new =>
          refine follows_bind (follows_claimMessages (stale ++ new) [] [] ?_) fun _ _ _ => trivial
          exact fun m hm => .inr (hnew new rfl m hm)

theorem tame_of_plain (c : RedisCall J) (h : Plain env c) : Tame env c := by
  cases c with
  | assign k f => exact fun t => (h t).1
  | expire id => exact h
  | _ => trivial

theorem tame_enqueue (args : EnqueueArgs J) : (StreamQueue.enqueue env args).Uses (Tame env) := by
  refine (@Dedup.follows_enqueue J env args).uses ?_
  intro l c hc
  cases c with
  | assign k f => exact hc.elim
  | expire id => exact hc.elim
  | _ => trivial

/-- **Every operation** makes only the calls that are allowed: a claim writes the hash of a task
that it was delivered. -/
theorem obeys_program (op : QueueOp J) :
    (op.program env).Obeys (Allowed env op) noted (fun _ _ => True) {} := by
  cases op with
  | claim consumer count => exact follows_claim
  | enqueue args =>
    exact Process.obeys_of_uses (fun _ _ h => ⟨h, trivial⟩) (fun _ _ => trivial) (tame_enqueue args)
  | heartbeat k =>
    exact Process.obeys_of_uses (fun _ c h => ⟨tame_of_plain c h, trivial⟩) (fun _ _ => trivial)
      (plain_heartbeat k)
  | ack k result =>
    exact Process.obeys_of_uses (fun _ c h => ⟨tame_of_plain c h, trivial⟩) (fun _ _ => trivial)
      (plain_ack k result)
  | fail k error retryable =>
    exact Process.obeys_of_uses (fun _ c h => ⟨tame_of_plain c h, trivial⟩) (fun _ _ => trivial)
      (plain_fail k error retryable)
  | cancel k =>
    exact Process.obeys_of_uses (fun _ c h => ⟨tame_of_plain c h, trivial⟩) (fun _ _ => trivial)
      (plain_cancel k)
  | get id =>
    have hget : (QueueOp.program env (.get id : QueueOp J)).Uses (Plain env) :=
      Process.uses_bind (plain_get id) fun _ => trivial
    exact Process.obeys_of_uses (fun _ c h => ⟨tame_of_plain c h, trivial⟩) (fun _ _ => trivial) hget

/-! ## Runs -/

/-- The pools of the queue. -/
abbrev QueuePool (J : Type) :=
  Pool (TaskStore J) (QueueOp J) Note (RedisCall J) (RedisCall.Reply J) QueueResult

/-- A queue without tasks. -/
def emptyPool : QueuePool J := { store := {} }

/-- A claim takes a task where it writes its hash; then the task is not leased to another
consumer. -/
def TakesFree (s : TaskStore J) (_ : List (QueueOp J × Note)) (_ : RedisWeather) (_ : ℕ)
    (op : QueueOp J) (_ : Note) (c : RedisCall J) : Prop :=
  match op, c with
  | .claim consumer _, .hset k => ∀ t ∈ s.objects[k]?, ¬s.LeasedToOther t.id consumer
  | _, _ => True

instance (s : TaskStore J) (ns : List (QueueOp J × Note)) (w : RedisWeather) (i : ℕ)
    (op : QueueOp J) (l : Note) (c : RedisCall J) : Decidable (TakesFree s ns w i op l c) :=
  decidable_of_iff (∀ consumer ∈ claimant op, ∀ k ∈ written c, ∀ t ∈ s.objects[k]?,
      ¬s.LeasedToOther t.id consumer)
    (by cases op <;> cases c <;> simp [TakesFree, claimant, written])

/-- No claim takes a task from another consumer. -/
abbrev Unstolen : QueuePool J → PoolMove (QueueOp J) RedisWeather ℚ → Prop :=
  Pool.Meets TakesFree fun _ _ _ => True

/-- The processes obey, and the invariant holds. -/
def Good (env : StreamQueueSettings) (p : QueuePool J) : Prop :=
  (∀ v ∈ p.workers, Pool.Obeying (shop env) (Allowed env) (fun _ _ _ => True) v) ∧
    Inv p.store p.notes

theorem good_step {p : QueuePool J} (hp : Good env p)
    {move : PoolMove (QueueOp J) RedisWeather ℚ}
    (hmeets : p.Meets (Kept env) (fun _ _ _ => True) move) : Good env (p.step (shop env) move) := by
  refine ⟨Pool.obeying_step obeys_program hp.1 move, ?_⟩
  refine Pool.inv_step ?_ ?_ ?_ hp.1 hp.2 hmeets
  · intro s ns op h
    refine ⟨?_, ?_, h.keyed⟩
    · intro e he id consumer hholder
      rcases List.mem_append.mp he with he | he
      · exact h.free e he id consumer hholder
      · obtain rfl := List.mem_singleton.mp he
        exact absurd (holder_eq_some hholder).2 List.not_mem_nil
    · intro e he k id hk
      rcases List.mem_append.mp he with he | he
      · exact h.created e he k id hk
      · obtain rfl := List.mem_singleton.mp he
        cases hk
  · intro s ns w i op l c s' r h hi hallowed hkept hexec
    obtain ⟨rfl, rfl⟩ := Prod.mk.inj (Option.some.inj hexec)
    exact inv_call h hi hallowed hkept
  · intro s ns now h _
    exact h.frame rfl (TaskStore.now_le_tick now) fun _ _ ht => TaskStore.hash_of_tick ht

theorem unstolen_of_good {p : QueuePool J} (hp : Good env p)
    (move : PoolMove (QueueOp J) RedisWeather ℚ) : Unstolen p move := by
  cases move with
  | start op => trivial
  | outside now => trivial
  | advance i w =>
    simp only [Unstolen, Pool.Meets]
    split
    · rename_i op l c next hworker
      unfold TakesFree
      have hnote : p.notes[i]? = some (op, l) := by simp [Pool.notes, hworker]
      have hobeys := hp.1 _ (List.mem_of_getElem? hworker)
      split
      · rename_i consumer count k
        intro t ht hleased
        obtain ⟨id, hid, hobject⟩ := hobeys.1.2
        obtain ⟨u, hu, hsame⟩ := hp.2.created _ (List.mem_of_getElem? hnote) k id hobject
        obtain rfl : t = u := Option.some.inj (ht.symm.trans hu)
        exact hp.2.hand hnote hid (hsame ▸ hleased)
      · trivial
    · trivial

/-- **Leases**: in a run all of whose calls meet the condition, no claim takes a task while another
consumer has a lease of it that has not expired. -/
theorem unstolen (moves : List (PoolMove (QueueOp J) RedisWeather ℚ))
    (hmeets : Run.Along (Pool.step (shop env)) (Pool.Meets (Kept env) fun _ _ _ => True) emptyPool
      moves) : Run.Along (Pool.step (shop env)) Unstolen emptyPool moves := by
  refine Run.Along.of_invariant (Good env) ?_ hmeets (fun p move hp hmove => good_step hp hmove)
    fun p move hp _ => unstolen_of_good hp move
  refine ⟨fun v hv => absurd hv List.not_mem_nil, ?_, ?_, ?_⟩
  · exact fun e he => absurd he List.not_mem_nil
  · exact fun e he => absurd he List.not_mem_nil
  · intro id t ht
    cases ht

/-- A task is enqueued and claimed, and another consumer claims after some time. -/
def claimedAgainAt (later : ℚ) : List (PoolMove (QueueOp Unit) RedisWeather ℚ) :=
  [.start (.enqueue { taskType := of "download", payload := (), id := of "t" })] ++
    List.replicate 4 (.advance 0 {}) ++ [.start (.claim (of "a") 1)] ++
    List.replicate 7 (.advance 1 {}) ++ [.outside later, .start (.claim (of "b") 1)] ++
    List.replicate 6 (.advance 2 { reached := [1] })

theorem unstolen_claimedAgainAt :
    Run.Along (Pool.step (shop plainStreamQueue)) Unstolen emptyPool (claimedAgainAt 130) :=
  unstolen (claimedAgainAt 130) (by decide +kernel)

/-- After forty seconds the entry is stale, and the lease has eighty seconds left. -/
theorem stolen_claimedAgainAt :
    ¬Run.Along (Pool.step (shop plainStreamQueue)) Unstolen emptyPool (claimedAgainAt 40) := by
  decide +kernel

end Lease

end WolfNas
