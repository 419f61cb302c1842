import WolfNas.Queue.Stream

/-!
# One live task for a key

An enqueue reserves its deduplication key, adds the task to the stream and writes its hash, one
call after another.  A reservation whose task has no hash is deleted by the next enqueue of the
key, and any reservation expires.  As long as no reservation is lost while its task is live or
its enqueue at work, and no task comes back to life once its key belongs to another, a key has
one live task.

## Main definitions

* `TaskStore.Live` — a task that is not over is in the stream or has a hash, under a key.
* `StreamQueue.Plain` — the calls that neither reserve a key nor add an entry.
* `Dedup.Note`, `Dedup.shop` — what is noted of an enqueue, and the processes.
* `Dedup.Kept`, `Dedup.KeptOver` — the condition on a call, and on time.

## Main results

* `Dedup.obeys_program` — only an enqueue that holds its reservation adds an entry.
* `Dedup.one_live` — in a run that meets the condition, a key has at most one live task.
-/

namespace WolfNas

open Text

namespace StreamQueue

variable {J : Type} {env : StreamQueueSettings}

/-! ## Calls of the other operations -/

/-- The calls that neither reserve a key nor add an entry. -/
def Plain (env : StreamQueueSettings) : RedisCall J → Prop
  | .setReservation _ _ | .delReservation _ | .xadd _ => False
  | .assign _ f => ∀ t, (f t).id = t.id ∧ (f t).dedupKey = t.dedupKey
  | .expire _ => 0 < env.taskTtlSeconds
  | _ => True

theorem uses_ask {U : RedisCall J → Prop} {c : RedisCall J} (h : U c) : (ask c).Uses U := ⟨h, fun _ => trivial⟩

theorem plain_writeHash (k : ℕ) : (writeHash k : Queueing J Unit).Uses (Plain env) :=
  Process.uses_bind (uses_ask trivial) fun _ => trivial

theorem plain_expireHash (id : Text) : (expireHash env id : Queueing J Unit).Uses (Plain env) := by
  unfold expireHash
  split_ifs with h
  · trivial
  · exact Process.uses_bind (uses_ask (not_le.mp h)) fun _ => trivial

theorem plain_removeEntry (id : Text) : (removeEntry id : Queueing J Bool).Uses (Plain env) := by
  refine Process.uses_bind (uses_ask trivial) ?_
  intro r
  cases r with
  | error e => trivial
  | ok u =>
    refine Process.uses_bind (uses_ask trivial) ?_
    intro r
    cases r with
    | error e => trivial
    | ok u => trivial

theorem plain_get (id : Text) : (get id : Queueing J (Option ℕ)).Uses (Plain env) := by
  refine Process.uses_bind (uses_ask trivial) ?_
  intro r
  split
  · exact Process.uses_bind (uses_ask trivial) fun _ => trivial
  · trivial

theorem plain_claimMessages (consumer : Text) (count : ℕ) (messages : List (StreamMessage J))
    (seen : List Text) (ks : List ℕ) :
    (claimMessages env consumer count messages seen ks).Uses (Plain env) := by
  induction messages generalizing seen ks with
  | nil => trivial
  | cons message rest ih =>
    rw [claimMessages]
    split
    · exact ih _ _
    · refine Process.uses_bind ?_ ?_
      · exact Process.uses_bind (uses_ask trivial) fun _ =>
          Process.uses_bind (uses_ask trivial) fun _ => trivial
      · intro t
        split
        · refine Process.uses_bind ?_ fun _ => ih _ _
          exact Process.uses_bind (plain_removeEntry _) fun _ => trivial
        · refine Process.uses_bind (uses_ask trivial) ?_
          intro now
          split
          · exact ih _ _
          · refine Process.uses_bind (uses_ask trivial) ?_
            intro k
            refine Process.uses_bind (plain_writeHash _) ?_
            intro _
            split
            · trivial
            · exact ih _ _
theorem plain_reclaimStale (consumer : Text) (count : ℕ) :
    (reclaimStale consumer count : Queueing J (Option (List (StreamMessage J)))).Uses
      (Plain env) := by
  refine Process.uses_bind (uses_ask trivial) ?_
  intro r
  split
  · trivial
  · refine Process.uses_bind ?_ fun _ => trivial
    refine Process.uses_bind (uses_ask trivial) ?_
    intro ids
    split
    · trivial
    · split
      · trivial
      · refine Process.uses_bind (uses_ask trivial) ?_
        intro r
        split
        · trivial
        · trivial
  · trivial

theorem plain_readNew (consumer : Text) (count : ℕ) :
    (readNew consumer count : Queueing J (Option (List (StreamMessage J)))).Uses (Plain env) := by
  refine Process.uses_bind (uses_ask trivial) ?_
  intro r
  split
  · trivial
  · trivial

theorem plain_claim (consumer : Text) (count : ℕ) :
    (claim env consumer count : Queueing J QueueResult).Uses (Plain env) := by
  refine Process.uses_bind (plain_reclaimStale _ _) ?_
  intro stale
  split
  · trivial
  · dsimp only
    split
    · exact Process.uses_bind (plain_claimMessages _ _ _ _ _) fun _ => trivial
    · refine Process.uses_bind (plain_readNew _ _) ?_
      intro new
      split
      · trivial
      · exact Process.uses_bind (plain_claimMessages _ _ _ _ _) fun _ => trivial

theorem plain_heartbeat (k : ℕ) : (heartbeat env k : Queueing J QueueResult).Uses (Plain env) := by
  refine Process.uses_bind (uses_ask trivial) ?_
  intro t
  split
  · trivial
  · split
    · trivial
    · refine Process.uses_bind (uses_ask trivial) fun now => ?_
      refine Process.uses_bind (uses_ask fun _ => ⟨rfl, rfl⟩) fun _ => ?_
      refine Process.uses_bind (plain_writeHash _) fun _ => ?_
      refine Process.uses_bind (uses_ask trivial) fun t => ?_
      split
      · trivial
      · refine Process.uses_bind (uses_ask trivial) fun r => ?_
        split
        · trivial
        · trivial

theorem plain_removeEntryOf (t : QueueTask J) :
    (removeEntryOf t : Queueing J Bool).Uses (Plain env) := by
  unfold removeEntryOf
  split
  · trivial
  · exact plain_removeEntry _

theorem plain_settle (k : ℕ) (t : QueueTask J) :
    (settle env k t : Queueing J QueueResult).Uses (Plain env) := by
  refine Process.uses_bind (plain_removeEntryOf t) fun removed => ?_
  split
  · refine Process.uses_bind (plain_writeHash _) fun _ => ?_
    exact Process.uses_bind (plain_expireHash _) fun _ => trivial
  · trivial

theorem plain_ack (k : ℕ) (result : Option J) :
    (ack env k result : Queueing J QueueResult).Uses (Plain env) := by
  refine Process.uses_bind (uses_ask trivial) fun t => ?_
  split
  · trivial
  · refine Process.uses_bind (uses_ask trivial) fun now => ?_
    exact Process.uses_bind (uses_ask fun _ => ⟨rfl, rfl⟩) fun _ => plain_settle _ _

theorem plain_cancel (k : ℕ) : (cancel env k : Queueing J QueueResult).Uses (Plain env) := by
  refine Process.uses_bind (uses_ask trivial) fun t => ?_
  split
  · trivial
  · refine Process.uses_bind (uses_ask trivial) fun now => ?_
    exact Process.uses_bind (uses_ask fun _ => ⟨rfl, rfl⟩) fun _ => plain_settle _ _

theorem plain_bury (k : ℕ) (t : QueueTask J) (error : Text) (retryable : Bool) :
    (bury env k t error retryable : Queueing J QueueResult).Uses (Plain env) := by
  refine Process.uses_bind (uses_ask fun _ => ⟨rfl, rfl⟩) fun _ => ?_
  refine Process.uses_bind (plain_writeHash _) fun _ => ?_
  refine Process.uses_bind (uses_ask trivial) fun r => ?_
  split
  · trivial
  · refine Process.uses_bind (plain_removeEntryOf t) fun removed => ?_
    split
    · exact Process.uses_bind (plain_expireHash _) fun _ => trivial
    · trivial

theorem plain_fail (k : ℕ) (error : Text) (retryable : Bool) :
    (fail env k error retryable : Queueing J QueueResult).Uses (Plain env) := by
  refine Process.uses_bind (uses_ask trivial) fun t => ?_
  split
  · trivial
  · refine Process.uses_bind ?_ fun recorded => ?_
    · refine Process.uses_bind (uses_ask trivial) fun r => ?_
      split
      · trivial
      · trivial
    · refine Process.uses_bind (uses_ask trivial) fun now => ?_
      dsimp only
      refine Process.uses_bind (uses_ask fun _ => ⟨rfl, rfl⟩) fun _ => ?_
      split
      · refine Process.uses_bind (uses_ask trivial) fun now => ?_
        refine Process.uses_bind (uses_ask fun _ => ⟨rfl, rfl⟩) fun _ => ?_
        exact Process.uses_bind (plain_writeHash _) fun _ => trivial
      · exact plain_bury _ _ _ _

end StreamQueue

/-! ## Live tasks -/

namespace TaskStore

variable {J : Type} (s : TaskStore J)

/-- Where a task stands: a task without a hash is queued. -/
def status (id : Text) : TaskStatus := (s.hash id).elim .queued QueueTask.status

/-- The stream has an entry of the task under the key. -/
def Entered (key id : Text) : Prop := ∃ e ∈ s.entries, e.fields.taskId = id ∧ e.fields.dedupKey = key

/-- The task is in the stream or has a hash, under the key. -/
def Filed (key id : Text) : Prop := s.Entered key id ∨ ∃ h ∈ s.hash id, h.dedupKey = key

/-- The task is filed under the key, and is not over. -/
def Live (key id : Text) : Prop := s.Filed key id ∧ (s.status id).terminal = false

instance (key id : Text) : Decidable (s.Live key id) := by
  unfold Live Filed Entered
  infer_instance

variable {s}

theorem Filed.mono {s' : TaskStore J} {key id : Text} (h : s'.Filed key id)
    (hentries : ∀ e ∈ s'.entries, e ∈ s.entries) (hhash : s'.hash id = s.hash id) :
    s.Filed key id := by
  rcases h with ⟨e, he, hid, hkey⟩ | ⟨t, ht, hkey⟩
  · exact .inl ⟨e, hentries e he, hid, hkey⟩
  · exact .inr ⟨t, hhash ▸ ht, hkey⟩

/-- What is live after a call that adds no entry and writes no hash was live before. -/
theorem Live.mono {s' : TaskStore J} {key id : Text} (h : s'.Live key id)
    (hentries : ∀ e ∈ s'.entries, e ∈ s.entries) (hhash : s'.hash id = s.hash id) :
    s.Live key id := by
  refine ⟨h.1.mono hentries hhash, ?_⟩
  have hstatus := h.2
  rw [status, hhash] at hstatus
  exact hstatus

end TaskStore

/-! ## Reservations -/

namespace Dedup

open StreamQueue

variable {J : Type} (env : StreamQueueSettings)

/-- What is noted of an enqueue: whether it holds its reservation, and its task object. -/
structure Note where
  holding : Bool := false
  object : Option ℕ := none
  deriving DecidableEq

/-- An enqueue holds its reservation from the call that made it to the one that writes its hash,
or to the one that fails to add its entry. -/
def noted (l : Note) : (c : RedisCall J) → c.Reply → Note
  | .create _, k => { l with object := some (l.object.getD k) }
  | .setReservation _ _, .ok true => { l with holding := true }
  | .xadd _, .error _ => { l with holding := false }
  | .hset _, _ => { l with holding := false }
  | _, _ => l

/-- The processes of the queue. -/
def shop : Workshop (TaskStore J) (QueueOp J) RedisWeather ℚ Note (RedisCall J)
    (RedisCall.Reply J) QueueResult where
  exec s w c := some (s.exec env w c)
  drift := TaskStore.tick
  program := QueueOp.program env
  first _ := {}
  noted _ := noted

/-- What the calls of an operation are. -/
def Allowed (op : QueueOp J) (l : Note) (c : RedisCall J) : Prop :=
  match op with
  | .enqueue args =>
    match c with
    | .create t => l.object = none → t.id = args.id ∧ t.dedupKey = args.dedupKey
    | .setReservation key id => key = args.dedupKey ∧ id = args.id
    | .xadd k | .hset k => l.object = some k ∧ (args.dedupKey ≠ [] → l.holding)
    | .assign _ _ | .expire _ => False
    | _ => True
  | _ => Plain env c

/-- The operation enqueues the id under the key. -/
def Enqueues (key id : Text) : QueueOp J → Prop
  | .enqueue args => args.dedupKey = key ∧ args.id = id
  | _ => False

instance (key id : Text) (op : QueueOp J) : Decidable (Enqueues key id op) := by
  unfold Enqueues
  split
  · infer_instance
  · infer_instance

/-- An enqueue at work holds the reservation of the key for the id. -/
def Held (ns : List (QueueOp J × Note)) (key id : Text) : Prop :=
  ∃ e ∈ ns, e.2.holding ∧ Enqueues key id e.1

/-- The keys under which a task is filed once its hash is written. -/
def keysOf (s : TaskStore J) (t : QueueTask J) : List Text :=
  t.dedupKey :: (s.entries.filter fun e => e.fields.taskId = t.id).map fun e => e.fields.dedupKey

/-- A call does not take a reservation away from a task that is live, or from an enqueue at work,
and does not bring a task back to life whose key is not reserved for it. -/
def Kept (s : TaskStore J) (ns : List (QueueOp J × Note)) (_ : RedisWeather) (_ : ℕ)
    (op : QueueOp J) (_ : Note) (c : RedisCall J) : Prop :=
  match c with
  | .delReservation key => ∀ id ∈ s.reserved key, ¬s.Live key id ∧ ¬Held ns key id
  | .hset k =>
    ∀ t ∈ s.objects[k]?, t.status.terminal = false → ∀ key ∈ keysOf s t, key ≠ [] →
      Enqueues key t.id op ∨ s.Live key t.id ∨ s.reserved key = some t.id
  | _ => True

instance (s : TaskStore J) (ns : List (QueueOp J × Note)) (w : RedisWeather) (i : ℕ)
    (op : QueueOp J) (l : Note) (c : RedisCall J) : Decidable (Kept s ns w i op l c) := by
  unfold Kept Held
  split
  · infer_instance
  · infer_instance
  · infer_instance

/-- Neither does time. -/
def KeptOver (s : TaskStore J) (ns : List (QueueOp J × Note)) (now : ℚ) : Prop :=
  (∀ key id, s.reserved key = some id → (s.tick now).reserved key = none →
    ¬s.Live key id ∧ ¬Held ns key id) ∧
  ∀ key id, key ≠ [] → (s.tick now).Live key id →
    s.Live key id ∨ (s.tick now).reserved key = some id

/-- The objects of enqueues are their tasks, and the reservation of a key is held for the enqueue
that made it and for the task that is live. -/
structure Inv (s : TaskStore J) (ns : List (QueueOp J × Note)) : Prop where
  created : ∀ args l k, (QueueOp.enqueue args, l) ∈ ns → l.object = some k →
    ∃ t, s.objects[k]? = some t ∧ t.id = args.id ∧ t.dedupKey = args.dedupKey
  held : ∀ key id, Held ns key id → s.reserved key = some id
  live : ∀ key id, key ≠ [] → s.Live key id → s.reserved key = some id

variable {env} {s s' : TaskStore J} {ns : List (QueueOp J × Note)} {op : QueueOp J} {l : Note}
  {i : ℕ}

/-- A call that adds no entry, writes no hash and leaves reservations and objects alone. -/
theorem Inv.frame (h : Inv s ns) (hobjects : s'.objects = s.objects)
    (hreserved : ∀ key, s'.reserved key = s.reserved key)
    (hentries : ∀ e ∈ s'.entries, e ∈ s.entries) (hhash : ∀ id, s'.hash id = s.hash id) :
    Inv s' ns where
  created args l k hop hk := by
    rw [hobjects]
    exact h.created args l k hop hk
  held key id hheld := by
    rw [hreserved]
    exact h.held key id hheld
  live key id hkey hlive := by
    rw [hreserved]
    exact h.live key id hkey (hlive.mono hentries (hhash id))

theorem exists_args {key id : Text} (h : Enqueues key id op) :
    ∃ args, op = .enqueue args ∧ args.dedupKey = key ∧ args.id = id := by
  cases op with
  | enqueue args => exact ⟨args, rfl, h⟩
  | _ => exact h.elim

/-- The note of an enqueue's worker changes. -/
theorem Inv.note (h : Inv s ns) {l' : Note}
    (hobject : ∀ args k, op = .enqueue args → l'.object = some k →
      (∃ l, (op, l) ∈ ns ∧ l.object = some k) ∨
        ∃ t, s.objects[k]? = some t ∧ t.id = args.id ∧ t.dedupKey = args.dedupKey)
    (hholding : ∀ args, op = .enqueue args → l'.holding →
      Held ns args.dedupKey args.id ∨ s.reserved args.dedupKey = some args.id) :
    Inv s (ns.set i (op, l')) where
  created args l k hop hk := by
    rcases List.mem_or_eq_of_mem_set hop with hop | heq
    · exact h.created args l k hop hk
    · obtain ⟨rfl, rfl⟩ := Prod.mk.inj heq
      rcases hobject args k rfl hk with ⟨l, hl, hlk⟩ | hcreated
      · exact h.created args l k hl hlk
      · exact hcreated
  held key id hheld := by
    obtain ⟨e, he, hl, henqueues⟩ := hheld
    rcases List.mem_or_eq_of_mem_set he with he | rfl
    · exact h.held _ _ ⟨e, he, hl, henqueues⟩
    · obtain ⟨args, rfl, rfl, rfl⟩ := exists_args henqueues
      rcases hholding args rfl hl with hheld | hreserved
      · exact h.held _ _ hheld
      · exact hreserved
  live := h.live

/-- A note that is lowered. -/
theorem Inv.lower (h : Inv s ns) (hi : ns[i]? = some (op, l)) {l' : Note}
    (hobject : l'.object = l.object) (hholding : l'.holding → l.holding) :
    Inv s (ns.set i (op, l')) := by
  have hmem := List.mem_of_getElem? hi
  refine h.note ?_ ?_
  · intro args k _ hk
    exact .inl ⟨l, hmem, hobject ▸ hk⟩
  · rintro args rfl hl
    exact .inl ⟨_, hmem, hholding hl, rfl, rfl⟩

/-- The object that an enqueue adds or writes is its task. -/
theorem Inv.object (h : Inv s ns) {args : EnqueueArgs J} (hi : ns[i]? = some (.enqueue args, l))
    {k : ℕ} (hk : l.object = some k) :
    ∃ t, s.objects[k]? = some t ∧ t.id = args.id ∧ t.dedupKey = args.dedupKey :=
  h.created args l k (List.mem_of_getElem? hi) hk

/-- The key of an enqueue that holds its reservation is reserved for it. -/
theorem Inv.reserved (h : Inv s ns) {args : EnqueueArgs J} (hi : ns[i]? = some (.enqueue args, l))
    (hholding : l.holding) : s.reserved args.dedupKey = some args.id :=
  h.held _ _ ⟨_, List.mem_of_getElem? hi, hholding, rfl, rfl⟩

theorem inv_create (h : Inv s ns) (t : QueueTask J) :
    Inv { s with objects := s.objects ++ [t] } ns where
  created args l k hop hk := by
    obtain ⟨u, hu, hid, hkey⟩ := h.created args l k hop hk
    refine ⟨u, ?_, hid, hkey⟩
    rw [List.getElem?_append_left (List.getElem?_eq_some_iff.mp hu).1]
    exact hu
  held := h.held
  live := h.live

theorem inv_assign (h : Inv s ns) (k : ℕ) {f : QueueTask J → QueueTask J}
    (hf : ∀ t, (f t).id = t.id ∧ (f t).dedupKey = t.dedupKey) :
    Inv { s with objects := s.objects.modify k f } ns where
  created args l j hop hj := by
    obtain ⟨u, hu, hid, hkey⟩ := h.created args l j hop hj
    by_cases hkj : k = j
    · refine ⟨f u, ?_, (hf u).1.trans hid, (hf u).2.trans hkey⟩
      simp [hu, hkj]
    · refine ⟨u, ?_, hid, hkey⟩
      simp [hu, hkj]
  held := h.held
  live := h.live

/-- A key that was not reserved is. -/
theorem inv_reserve (h : Inv s ns) {key : Text} (hfree : s.reserved key = none) (id : Text)
    (expires : Option ℚ) : Inv { s with
      reservations := Function.update s.reservations key (some (id, expires)) } ns := by
  have hother : ∀ key' id', s.reserved key' = some id' →
      TaskStore.unexpired s.now (Function.update s.reservations key (some (id, expires)) key') =
        some id' := by
    intro key' id' hreserved
    have hne : key' ≠ key := by
      rintro rfl
      rw [hfree] at hreserved
      cases hreserved
    rw [Function.update_of_ne hne]
    exact hreserved
  exact ⟨h.created, fun key id hheld => hother key id (h.held key id hheld),
    fun key id hkey hlive => hother key id (h.live key id hkey hlive)⟩

/-- A reservation that nothing needs is deleted. -/
theorem inv_unreserve (h : Inv s ns) {key : Text}
    (hspare : ∀ id ∈ s.reserved key, ¬s.Live key id ∧ ¬Held ns key id) :
    Inv { s with reservations := Function.update s.reservations key none } ns where
  created := h.created
  held key' id hheld := by
    have hne : key' ≠ key := by
      rintro rfl
      exact (hspare id (h.held _ id hheld)).2 hheld
    change TaskStore.unexpired s.now (Function.update s.reservations key none key') = some id
    rw [Function.update_of_ne hne]
    exact h.held key' id hheld
  live key' id hkey hlive := by
    have hne : key' ≠ key := by
      rintro rfl
      exact (hspare id (h.live _ id hkey hlive)).1 hlive
    change TaskStore.unexpired s.now (Function.update s.reservations key none key') = some id
    rw [Function.update_of_ne hne]
    exact h.live key' id hkey hlive

/-- An entry of a task whose key is reserved for it is added. -/
theorem inv_add (h : Inv s ns) (n : ℕ) {fields : StreamFields J}
    (hreserved : fields.dedupKey ≠ [] → s.reserved fields.dedupKey = some fields.taskId) :
    Inv { s with entries := s.entries ++ [⟨n, fields⟩], lastEntry := n } ns where
  created := h.created
  held := h.held
  live key id hkey hlive := by
    obtain ⟨hfiled, hstatus⟩ := hlive
    rcases hfiled with ⟨e, he, hid, hkey'⟩ | hhash
    · rcases List.mem_append.mp he with he | he
      · exact h.live key id hkey ⟨.inl ⟨e, he, hid, hkey'⟩, hstatus⟩
      · obtain rfl := List.mem_singleton.mp he
        subst hid hkey'
        exact hreserved hkey
    · exact h.live key id hkey ⟨.inr hhash, hstatus⟩

/-- A hash is written; where the task is not over, it was live or its key is reserved for it. -/
theorem inv_writeHash (h : Inv s ns) (t : QueueTask J)
    (hrevived : t.status.terminal = false → ∀ key, key ≠ [] →
      (t.dedupKey = key ∨ s.Entered key t.id) → s.Live key t.id ∨ s.reserved key = some t.id) :
    Inv (s.writeHash t) ns where
  created := h.created
  held := h.held
  live key id hkey hlive := by
    change s.reserved key = some id
    by_cases hid : id = t.id
    · subst hid
      obtain ⟨hfiled, hstatus⟩ := hlive
      have hopen : t.status.terminal = false := by
        simpa [TaskStore.status, TaskStore.hash_writeHash] using hstatus
      have hunder : t.dedupKey = key ∨ s.Entered key t.id := by
        rcases hfiled with hentered | ⟨u, hu, hukey⟩
        · exact .inr hentered
        · rw [TaskStore.hash_writeHash, if_pos rfl] at hu
          obtain rfl := Option.some.inj hu
          exact .inl hukey
      rcases hrevived hopen key hkey hunder with hlive | hreserved
      · exact h.live key _ hkey hlive
      · exact hreserved
    · refine h.live key id hkey (hlive.mono (fun e he => he) ?_)
      rw [TaskStore.hash_writeHash, if_neg hid]

theorem assign_of_allowed {k : ℕ} {f : QueueTask J → QueueTask J}
    (h : Allowed env op l (.assign k f)) : ∀ t, (f t).id = t.id ∧ (f t).dedupKey = t.dedupKey := by
  cases op with
  | enqueue args => exact h.elim
  | _ => exact h

theorem expire_of_allowed {id : Text} (h : Allowed env op l (.expire id : RedisCall J)) :
    0 < env.taskTtlSeconds := by
  cases op with
  | enqueue args => exact h.elim
  | _ => exact h

theorem xadd_of_allowed {k : ℕ} (h : Allowed env op l (.xadd k)) :
    ∃ args, op = .enqueue args ∧ l.object = some k ∧ (args.dedupKey ≠ [] → l.holding) := by
  cases op with
  | enqueue args => exact ⟨args, rfl, h⟩
  | _ => exact h.elim

/-- A call that is served keeps the invariant. -/
theorem inv_serve (h : Inv s ns) (hi : ns[i]? = some (op, l)) {w : RedisWeather} {c : RedisCall J}
    (hallowed : Allowed env op l c) (hkept : Kept s ns w i op l c) :
    Inv (s.serve env w c).1 ns := by
  cases c with
  | clock => exact h
  | load k => exact h
  | getReservation key => exact h
  | hgetall id => exact h
  | hgetAttempts id => exact h
  | xpending count => exact h
  | create t => exact inv_create h t
  | assign k f => exact inv_assign h k (assign_of_allowed hallowed)
  | setReservation key id =>
    simp only [TaskStore.serve]
    split_ifs with hreserved
    · exact h
    · exact inv_reserve h (by simpa using hreserved) id _
    · exact inv_reserve h (by simpa using hreserved) id _
  | delReservation key => exact inv_unreserve h hkept
  | xadd k =>
    obtain ⟨args, rfl, hk, hholding⟩ := xadd_of_allowed hallowed
    obtain ⟨t, ht, hid, hkey⟩ := h.object hi hk
    simp only [TaskStore.serve, ht]
    refine inv_add h _ ?_
    intro hne
    have hreserved := h.reserved hi (hholding (hkey ▸ hne))
    rw [← hid, ← hkey] at hreserved
    exact hreserved
  | xaddDead k error =>
    simp only [TaskStore.serve]
    split
    · exact h
    · exact h.frame rfl (fun _ => rfl) (fun _ he => he) fun _ => rfl
  | hset k =>
    simp only [TaskStore.serve]
    split
    · exact h
    · rename_i t ht
      refine inv_writeHash h t ?_
      intro hopen key hkey hunder
      have hkeys : key ∈ keysOf s t := by
        rcases hunder with rfl | ⟨e, he, hid, rfl⟩
        · exact List.mem_cons_self
        · refine List.mem_cons_of_mem _ (List.mem_map.mpr ⟨e, ?_, rfl⟩)
          exact List.mem_filter.mpr ⟨he, by simpa using hid⟩
      rcases hkept t ht hopen key hkeys hkey with hown | hlive
      · obtain ⟨args, rfl, rfl, hid⟩ := exists_args hown
        have hreserved := h.reserved hi (hallowed.2 hkey)
        rw [hid] at hreserved
        exact .inr hreserved
      · exact hlive
  | expire id =>
    refine h.frame ?_ ?_ ?_ fun id' => TaskStore.hash_expireHash id id' (expire_of_allowed hallowed)
    · simp only [TaskStore.serve, TaskStore.expireHash]
      split
      · rfl
      · rfl
    · intro key
      simp only [TaskStore.serve, TaskStore.expireHash]
      split
      · rfl
      · rfl
    · intro e he
      simp only [TaskStore.serve, TaskStore.expireHash] at he
      split at he
      · exact he
      · exact he
  | xautoclaim consumer count => exact h.frame rfl (fun _ => rfl) (fun _ he => he) fun _ => rfl
  | xclaim consumer ids => exact h.frame rfl (fun _ => rfl) (fun _ he => he) fun _ => rfl
  | xclaimJustid consumer id => exact h.frame rfl (fun _ => rfl) (fun _ he => he) fun _ => rfl
  | xreadgroup consumer count => exact h.frame rfl (fun _ => rfl) (fun _ he => he) fun _ => rfl
  | xack id => exact h.frame rfl (fun _ => rfl) (fun _ he => he) fun _ => rfl
  | xdel id =>
    exact h.frame rfl (fun _ => rfl) (fun e he => (List.mem_filter.mp he).1) fun _ => rfl

/-- A call that failed lowers the note. -/
theorem noted_failure {e : RedisError} {c : RedisCall J} {r : c.Reply}
    (h : TaskStore.failure e c = some r) :
    (noted l c r).object = l.object ∧ ((noted l c r).holding → l.holding) := by
  cases c with
  | clock => cases h
  | create t => cases h
  | load k => cases h
  | assign k f => cases h
  | xadd k =>
    obtain rfl := Option.some.inj h
    exact ⟨rfl, fun hholding => by cases hholding⟩
  | hset k =>
    obtain rfl := Option.some.inj h
    exact ⟨rfl, fun hholding => by cases hholding⟩
  | _ =>
    obtain rfl := Option.some.inj h
    exact ⟨rfl, id⟩

/-- What is noted of a call that was served is so. -/
theorem inv_noted (hi : ns[i]? = some (op, l)) {w : RedisWeather} {c : RedisCall J}
    (hallowed : Allowed env op l c) (hserved : Inv (s.serve env w c).1 ns) :
    Inv (s.serve env w c).1 (ns.set i (op, noted l c (s.serve env w c).2)) := by
  cases c with
  | create t =>
    refine hserved.note ?_ ?_
    · rintro args k rfl hk
      cases hobject : l.object with
      | some k' =>
        refine .inl ⟨l, List.mem_of_getElem? hi, ?_⟩
        simpa [noted, hobject] using hk
      | none =>
        obtain rfl : s.objects.length = k := by
          simpa [noted, TaskStore.serve, hobject] using hk
        refine .inr ⟨t, ?_, hallowed hobject⟩
        simp [TaskStore.serve]
    · rintro args rfl hholding
      exact .inl ⟨_, List.mem_of_getElem? hi, hholding, rfl, rfl⟩
  | setReservation key id =>
    refine hserved.note ?_ ?_
    · rintro args k rfl hk
      refine .inl ⟨l, List.mem_of_getElem? hi, ?_⟩
      revert hk
      simp only [TaskStore.serve]
      split_ifs
      · exact fun hk => hk
      · exact fun hk => hk
      · exact fun hk => hk
    · rintro args rfl hholding
      obtain ⟨rfl, rfl⟩ := hallowed
      revert hholding
      simp only [TaskStore.serve]
      split_ifs with hreserved hforever
      · exact fun hholding => .inl ⟨_, List.mem_of_getElem? hi, hholding, rfl, rfl⟩
      · intro _
        right
        simp [TaskStore.reserved, TaskStore.unexpired]
      · intro _
        right
        simpa [TaskStore.reserved, TaskStore.unexpired] using hforever
  | xadd k =>
    have hsame : noted l (.xadd k : RedisCall J) (s.serve env w (.xadd k)).2 = l := by
      simp only [TaskStore.serve]
      split
      · rfl
      · rfl
    exact hserved.lower hi (by rw [hsame]) fun hholding => by rwa [hsame] at hholding
  | hset k => exact hserved.lower hi rfl fun hholding => by cases hholding
  | _ => exact hserved.lower hi rfl id

/-! ## Processes -/

variable {args : EnqueueArgs J}

/-- Every call of the process is allowed. -/
def Follows (env : StreamQueueSettings) {α : Type} (op : QueueOp J) (Q : Note → α → Prop) (l : Note)
    (x : Queueing J α) : Prop := x.Obeys (Allowed env op) noted Q l

theorem follows_bind {α β : Type} {x : Queueing J α} {f : α → Queueing J β} {Q : Note → α → Prop}
    {Q' : Note → β → Prop} (hx : Follows env op Q l x)
    (hf : ∀ l a, Q l a → Follows env op Q' l (f a)) : Follows env op Q' l (x >>= f) :=
  Process.obeys_bind (hx.weaken hf)

/-- A call of an operation, and what follows. -/
theorem follows_ask {α : Type} {c : RedisCall J} {f : c.Reply → Queueing J α} {Q : Note → α → Prop}
    (hc : Allowed env op l c) (hf : ∀ r, Follows env op Q (noted l c r) (f r)) :
    Follows env op Q l (ask c >>= f) := ⟨hc, hf⟩

theorem follows_reserveDedup {k : ℕ} (hk : l.object = some k) (n : ℕ) :
    Follows env (.enqueue args) (fun l r => l.object = some k ∧ (r = .reserved → l.holding)) l
      (reserveDedup args.dedupKey args.id n) := by
  induction n generalizing l with
  | zero => exact ⟨hk, fun h => by cases h⟩
  | succ n ih =>
    refine follows_ask ⟨rfl, rfl⟩ ?_
    intro r
    match r with
    | .error e => exact ⟨hk, fun h => by cases h⟩
    | .ok true => exact ⟨hk, fun _ => rfl⟩
    | .ok false =>
      refine follows_ask trivial ?_
      intro r
      match r with
      | .error e => exact ⟨hk, fun h => by cases h⟩
      | .ok none => exact ih hk
      | .ok (some existingId) =>
        change Follows env (.enqueue args) _ l (if existingId = [] then _ else _)
        split
        · exact ih hk
        · have hget : Follows env (.enqueue args) (fun l' _ => l'.object = some k) l
              (get existingId : Queueing J (Option ℕ)) := by
            refine follows_ask trivial ?_
            intro r
            split
            · refine follows_ask (fun hnone => ?_) fun j => ?_
              · exact absurd (hk.symm.trans hnone) (Option.some_ne_none k)
              · change some (l.object.getD j) = some k
                rw [hk]
                rfl
            · exact hk
          refine follows_bind hget ?_
          intro l' found hk'
          cases found with
          | some j => exact ⟨hk', fun h => by cases h⟩
          | none =>
            refine follows_ask trivial ?_
            intro r
            cases r with
            | error e => exact ⟨hk', fun h => by cases h⟩
            | ok u => exact ih hk'

theorem follows_append {k : ℕ} (hk : l.object = some k) (hholding : args.dedupKey ≠ [] → l.holding)
    (key id : Text) : Follows env (.enqueue args) (fun _ _ => True) l (append k key id) := by
  refine follows_ask ⟨hk, hholding⟩ ?_
  intro r
  cases r with
  | ok u => exact follows_ask ⟨hk, hholding⟩ fun _ => trivial
  | error e =>
    have hrelease : ∀ l, Follows env (.enqueue args) (fun _ _ => True) l
        (releaseDedup key id : Queueing J Unit) := by
      intro l
      unfold releaseDedup
      split
      · trivial
      · refine follows_ask trivial ?_
        intro r
        cases r with
        | error e => trivial
        | ok owner =>
          dsimp only
          split
          · exact follows_ask trivial fun _ => trivial
          · trivial
    exact follows_bind (hrelease _) fun _ _ _ => trivial

/-- An enqueue makes the calls that are allowed. -/
theorem follows_enqueue :
    Follows env (.enqueue args) (fun _ _ => True) {} (StreamQueue.enqueue env args) := by
  refine follows_ask trivial fun now => ?_
  refine follows_ask (fun _ => ⟨rfl, rfl⟩) fun k => ?_
  split
  · rename_i hkey
    exact follows_append rfl (fun hne => absurd hkey hne) _ _
  · refine follows_bind (follows_reserveDedup rfl 5) ?_
    intro l r hl
    cases r with
    | existing j => trivial
    | failed => trivial
    | reserved => exact follows_append hl.1 (fun _ => hl.2 rfl) _ _

/-- **Every operation** makes only the calls that are allowed: an entry is added by an enqueue
that holds its reservation. -/
theorem obeys_program (op : QueueOp J) :
    (op.program env).Obeys (Allowed env op) noted (fun _ _ => True) {} := by
  cases op with
  | enqueue args => exact follows_enqueue
  | claim consumer count =>
    exact Process.obeys_of_uses (fun _ _ h => h) (fun _ _ => trivial) (plain_claim consumer count)
  | heartbeat k =>
    exact Process.obeys_of_uses (fun _ _ h => h) (fun _ _ => trivial) (plain_heartbeat k)
  | ack k result =>
    exact Process.obeys_of_uses (fun _ _ h => h) (fun _ _ => trivial) (plain_ack k result)
  | fail k error retryable =>
    exact Process.obeys_of_uses (fun _ _ h => h) (fun _ _ => trivial) (plain_fail k error retryable)
  | cancel k => exact Process.obeys_of_uses (fun _ _ h => h) (fun _ _ => trivial) (plain_cancel k)
  | get id =>
    have hget : (QueueOp.program env (.get id : QueueOp J)).Uses (Plain env) :=
      Process.uses_bind (plain_get id) fun _ => trivial
    exact Process.obeys_of_uses (fun _ _ h => h) (fun _ _ => trivial) hget

/-! ## Runs -/

/-- A call, however it is answered, keeps the invariant. -/
theorem inv_call (h : Inv s ns) (hi : ns[i]? = some (op, l)) {w : RedisWeather} {c : RedisCall J}
    (hallowed : Allowed env op l c) (hkept : Kept s ns w i op l c) :
    Inv (s.exec env w c).1 (ns.set i (op, noted l c (s.exec env w c).2)) := by
  have hserved := inv_serve h hi hallowed hkept
  rcases s.exec_cases env w c with hexec | ⟨e, r, hr, hexec | hexec⟩
  · rw [hexec]
    exact inv_noted hi hallowed hserved
  · rw [hexec]
    exact h.lower hi (noted_failure hr).1 (noted_failure hr).2
  · rw [hexec]
    exact hserved.lower hi (noted_failure hr).1 (noted_failure hr).2

/-- Time keeps the invariant. -/
theorem inv_tick (h : Inv s ns) {now : ℚ} (hkept : KeptOver s ns now) : Inv (s.tick now) ns := by
  have hstays : ∀ key id, s.reserved key = some id → s.Live key id ∨ Held ns key id →
      (s.tick now).reserved key = some id := by
    intro key id hreserved hneeded
    cases hlater : (s.tick now).reserved key with
    | none =>
      obtain ⟨hdead, hfree⟩ := hkept.1 key id hreserved hlater
      exact (hneeded.elim hdead hfree).elim
    | some id' =>
      have hsame := TaskStore.reserved_of_tick hlater
      rw [hreserved] at hsame
      exact hsame.symm
  refine ⟨h.created, ?_, ?_⟩
  · intro key id hheld
    exact hstays key id (h.held key id hheld) (.inr hheld)
  · intro key id hkey hlive
    rcases hkept.2 key id hkey hlive with hlive | hreserved
    · exact hstays key id (h.live key id hkey hlive) (.inl hlive)
    · exact hreserved

/-- A queue without tasks. -/
def emptyPool : Pool (TaskStore J) (QueueOp J) Note (RedisCall J) (RedisCall.Reply J)
    QueueResult := { store := {} }

theorem inv_empty : Inv ({} : TaskStore J) [] where
  created args l k hop := absurd hop List.not_mem_nil
  held key id hheld := by
    obtain ⟨e, he, -⟩ := hheld
    exact absurd he List.not_mem_nil
  live key id hkey hlive := by
    rcases hlive.1 with ⟨e, he, -⟩ | ⟨h, hh, -⟩
    · exact absurd he List.not_mem_nil
    · cases hh

/-- The invariant holds in every store that a run reaches whose steps meet the condition. -/
theorem inv_run {moves : List (PoolMove (QueueOp J) RedisWeather ℚ)}
    (hmeets : Run.Along (Pool.step (shop env)) (Pool.Meets Kept KeptOver) emptyPool moves) :
    Inv (moves.foldl (Pool.step (shop env)) emptyPool).store
      (moves.foldl (Pool.step (shop env)) emptyPool).notes := by
  refine (Pool.invariant obeys_program ?_ ?_ ?_ ?_ inv_empty hmeets).2
  · intro s ns op h
    refine ⟨?_, ?_, h.live⟩
    · intro args l k hop hk
      rcases List.mem_append.mp hop with hop | hop
      · exact h.created args l k hop hk
      · obtain ⟨-, rfl⟩ := Prod.mk.inj (List.mem_singleton.mp hop)
        cases hk
    · rintro key id ⟨e, he, hl, henqueues⟩
      rcases List.mem_append.mp he with he | he
      · exact h.held key id ⟨e, he, hl, henqueues⟩
      · obtain rfl := List.mem_singleton.mp he
        cases hl
  · intro s ns w i op l c s' r h hi hallowed hkept hexec
    obtain ⟨rfl, rfl⟩ := Prod.mk.inj (Option.some.inj hexec)
    exact inv_call h hi hallowed hkept
  · intro s ns now h hkept
    exact inv_tick h hkept
  · intro w hw
    exact absurd hw List.not_mem_nil

/-- **One task for a key**: in a run all of whose steps meet the condition, no two tasks of one key
are live at any time. -/
theorem one_live (moves : List (PoolMove (QueueOp J) RedisWeather ℚ))
    (hmeets : Run.Along (Pool.step (shop env)) (Pool.Meets Kept KeptOver) emptyPool moves) :
    ∀ n key, key ≠ [] → ∀ id id',
      (Run.stateAt (Pool.step (shop env)) emptyPool moves n).store.Live key id →
      (Run.stateAt (Pool.step (shop env)) emptyPool moves n).store.Live key id' → id = id' := by
  intro n key hkey id id' hlive hlive'
  have hinv := inv_run (hmeets.take n)
  have hreserved := hinv.live key id hkey hlive
  have hreserved' := hinv.live key id' hkey hlive'
  rw [hreserved] at hreserved'
  exact Option.some.inj hreserved'

/-- A task of the key. -/
def sampleArgs (id : Text) : EnqueueArgs Unit :=
  { taskType := of "download", payload := (), dedupKey := of "k", id }

/-- One enqueue, and then another of the same key. -/
def twoEnqueues : List (PoolMove (QueueOp Unit) RedisWeather ℚ) :=
  [.start (.enqueue (sampleArgs (of "a")))] ++ List.replicate 5 (.advance 0 {}) ++
    [.start (.enqueue (sampleArgs (of "b")))] ++ List.replicate 6 (.advance 1 {})

/-- The second enqueue leaves the first task the only one that is live. -/
theorem one_live_twoEnqueues :
    (Run.stateAt (Pool.step (shop plainStreamQueue)) emptyPool twoEnqueues 13).store.Live (of "k")
        (of "a") ∧
      ¬(Run.stateAt (Pool.step (shop plainStreamQueue)) emptyPool twoEnqueues 13).store.Live (of "k")
        (of "b") := by
  have hmeets : Run.Along (Pool.step (shop plainStreamQueue))
      (Pool.Meets Kept fun _ _ _ => False) emptyPool twoEnqueues := by decide +kernel
  have hlive : (Run.stateAt (Pool.step (shop plainStreamQueue)) emptyPool twoEnqueues
      13).store.Live (of "k") (of "a") := by decide +kernel
  refine ⟨hlive, fun hsecond => ?_⟩
  have hone := one_live twoEnqueues
    (hmeets.imp (Pool.Meets.weaken fun _ _ _ h => h.elim)) 13 (of "k") (by decide) _ _ hlive hsecond
  exact absurd hone (by decide)

/-- Between the reservation of the first enqueue and its hash, the second finds no hash. -/
def crossedEnqueues : List (PoolMove (QueueOp Unit) RedisWeather ℚ) :=
  [.start (.enqueue (sampleArgs (of "a"))), .start (.enqueue (sampleArgs (of "b")))] ++
    List.replicate 3 (.advance 0 {}) ++ List.replicate 9 (.advance 1 {}) ++
    List.replicate 2 (.advance 0 {})

/-- Both tasks are live. -/
theorem crossed_live : ¬∀ n key, key ≠ [] → ∀ id id',
    (Run.stateAt (Pool.step (shop plainStreamQueue)) emptyPool crossedEnqueues n).store.Live key id →
    (Run.stateAt (Pool.step (shop plainStreamQueue)) emptyPool crossedEnqueues n).store.Live key id' →
      id = id' := by
  intro h
  have hlive : (Run.stateAt (Pool.step (shop plainStreamQueue)) emptyPool crossedEnqueues
      16).store.Live (of "k") (of "a") := by decide +kernel
  have hlive' : (Run.stateAt (Pool.step (shop plainStreamQueue)) emptyPool crossedEnqueues
      16).store.Live (of "k") (of "b") := by decide +kernel
  exact absurd (h 16 (of "k") (by decide) _ _ hlive hlive') (by decide)

end Dedup

end WolfNas
