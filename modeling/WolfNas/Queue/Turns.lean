import WolfNas.Lib.PriorityLine
import WolfNas.Queue.Memory

/-!
# The order of the queue in memory

The heap of the queue has an entry for every task that was put in, also for those that were
cancelled since.  Beside the queue runs a line with priorities, in which the tasks that wait stand:
a claim serves the first of the line.

## Main definitions

* `LinedQueue`, `LinedQueue.step` — a queue, and the line.
* `MemoryQueue.Orderly` — a new task has a new id, and a task is put in again only after its entry
  was popped.
* `LinedQueue.Serves` — what is claimed is what the line serves.

## Main results

* `LinedQueue.lined_step` — the heap shows the line after every operation.
* `LinedQueue.served_in_turn` — claims in every run, and how often each task is claimed.
-/

namespace WolfNas

open Text

variable {J : Type}

namespace MemoryQueue

variable (env : MemoryQueueSettings) (q : MemoryQueue J)

/-- The place of an entry whose task waits. -/
def place (e : ReadyEntry) : Option (InLine ℤ ℕ) :=
  (q.current e.id).bind fun (k, t) =>
    if t.status = .queued then some ⟨e.priority, e.sequence, k⟩ else none

/-- A new task has an id of its own, which `uuid4` makes for it or for the caller; a task is put in
again where no entry has its id. -/
def Orderly (q : MemoryQueue J) (move : ℚ × MemoryOp J) : Prop :=
  match move.2 with
  | .enqueue args => q.tasks args.id = none
  | .fail id _ retryable => ∀ found ∈ q.current id, failStatus found.2 retryable = .queued →
      ∀ e ∈ q.ready, e.id ≠ id
  | _ => True

instance (q : MemoryQueue J) (move : ℚ × MemoryOp J) : Decidable (q.Orderly move) := by
  unfold Orderly
  split <;> infer_instance

/-- The task that is put in again. -/
def retried (move : ℚ × MemoryOp J) : List ℕ :=
  match move.2 with
  | .fail id _ retryable =>
    match q.current id with
    | some (k, t) => if failStatus t retryable = .queued then [k] else []
    | none => []
  | _ => []

/-- A task that is put in again. -/
def retriedTask (now : ℚ) (error : Text) (retryable : Bool) (t : QueueTask J) : QueueTask J :=
  { t with
    attempts := t.attempts + 1
    lastError := error
    updatedAt := now
    status := failStatus t retryable
    leaseOwner := []
    leaseUntil := 0 }

/-- What an operation does to the line of the tasks that wait. -/
def effect (move : ℚ × MemoryOp J) : PriorityLine.Effect ℤ ℕ :=
  match move.2 with
  | .enqueue args =>
    if (q.enqueue env move.1 args).1.objects.length = q.objects.length then .keep
    else .join (args.priority.getD env.priority) q.objects.length
  | .claim _ count => .serve (max 1 count)
  | .fail id _ retryable => (q.current id).elim .keep fun (k, t) =>
    if failStatus t retryable = .queued then .join t.priority k else .leave k
  | .ack id _ | .cancel id => (q.current id).elim .keep fun (k, _) => .leave k
  | .heartbeat _ | .close => .keep

end MemoryQueue

/-- A queue, and the line of the tasks that wait. -/
structure LinedQueue (J : Type) where
  queue : MemoryQueue J := {}
  line : PriorityLine ℤ ℕ := {}

namespace LinedQueue

variable (env : MemoryQueueSettings) (s : LinedQueue J)

/-- One operation. -/
def step (s : LinedQueue J) (move : ℚ × MemoryOp J) : LinedQueue J where
  queue := s.queue.step env move
  line := s.line.apply (s.queue.effect env move)

/-- The tasks that leave the line without being claimed. -/
def withdrawn (s : LinedQueue J) (move : ℚ × MemoryOp J) : List ℕ :=
  s.line.left (s.queue.effect env move)

/-- What is claimed is what the line serves. -/
def Serves (s : LinedQueue J) (move : ℚ × MemoryOp J) : Prop :=
  s.queue.claimed env move = s.line.served (s.queue.effect env move)

end LinedQueue

/-! ## The tables -/

theorem ReadyEntry.le_trans {a b c : ReadyEntry} (hab : a.le b) (hbc : b.le c) : a.le c := by
  unfold ReadyEntry.le at *
  omega

instance : IsTrans ReadyEntry ReadyEntry.le := ⟨fun _ _ _ => ReadyEntry.le_trans⟩

instance : Std.Total ReadyEntry.le where
  total a b := by
    unfold ReadyEntry.le
    omega

namespace MemoryQueue

variable {env : MemoryQueueSettings} {q : MemoryQueue J} {now : ℚ} {k : ℕ} {t t' : QueueTask J}
  {id : Text} {e : ReadyEntry}

/-- An id is that of the object that the table has for it. -/
def Indexed (q : MemoryQueue J) : Prop :=
  ∀ id k, q.tasks id = some k ↔ ∃ t, q.objects[k]? = some t ∧ t.id = id

theorem current_eq_some_iff (h : q.Indexed) :
    q.current id = some (k, t) ↔ q.objects[k]? = some t ∧ t.id = id := by
  constructor
  · intro hcurrent
    have hobject := object_of_current hcurrent
    obtain ⟨j, hj, hpair⟩ := Option.bind_eq_some_iff.mp hcurrent
    obtain ⟨u, -, huk⟩ := Option.map_eq_some_iff.mp hpair
    obtain rfl : j = k := congrArg Prod.fst huk
    obtain ⟨u, hu, hid⟩ := (h id j).mp hj
    obtain rfl : u = t := Option.some.inj (hu.symm.trans hobject)
    exact ⟨hobject, hid⟩
  · rintro ⟨hobject, rfl⟩
    have htask := (h t.id k).mpr ⟨t, hobject, rfl⟩
    rw [current, htask, Option.bind_some, hobject]
    rfl

theorem indexed_write (h : q.Indexed) (hk : q.objects[k]? = some t) (hid : t'.id = t.id) :
    (q.write k t').Indexed := by
  intro id j
  rw [write, h]
  by_cases hj : k = j
  · subst hj
    rw [hk, List.getElem?_set_self (List.getElem?_eq_some_iff.mp hk).1]
    simp [hid]
  · rw [List.getElem?_set_ne hj]

/-- An entry of an object has a place while the object is queued. -/
theorem place_of_object (h : q.Indexed) (hk : q.objects[k]? = some t) (he : e.id = t.id) :
    q.place e = if t.status = .queued then some ⟨e.priority, e.sequence, k⟩ else none := by
  have hcurrent : q.current e.id = some (k, t) := (current_eq_some_iff h).mpr ⟨hk, he.symm⟩
  rw [place, hcurrent, Option.bind_some]

/-- An object is written with its id: no other entry's place changes. -/
theorem place_write_of_ne (h : q.Indexed) (hk : q.objects[k]? = some t) (hid : t'.id = t.id)
    (he : e.id ≠ t.id) : (q.write k t').place e = q.place e := by
  have hcurrent : (q.write k t').current e.id = q.current e.id := by
    refine Option.ext fun p => ?_
    obtain ⟨j, u⟩ := p
    rw [current_eq_some_iff (indexed_write h hk hid), current_eq_some_iff h, write]
    by_cases hj : k = j
    · subst hj
      rw [hk, List.getElem?_set_self (List.getElem?_eq_some_iff.mp hk).1]
      constructor
      · rintro ⟨heq, hu⟩
        rw [← Option.some.inj heq] at hu
        exact absurd (hu.symm.trans hid) he
      · rintro ⟨heq, hu⟩
        rw [← Option.some.inj heq] at hu
        exact absurd hu.symm he
    · rw [List.getElem?_set_ne hj]
  rw [place, place, hcurrent]

theorem place_write_of_eq (h : q.Indexed) (hk : q.objects[k]? = some t) (hid : t'.id = t.id)
    (he : e.id = t.id) : (q.write k t').place e =
      if t'.status = .queued then some ⟨e.priority, e.sequence, k⟩ else none :=
  place_of_object (indexed_write h hk hid)
    (List.getElem?_set_self (List.getElem?_eq_some_iff.mp hk).1) (he.trans hid.symm)

/-- An object is written with its id and its status: no place changes. -/
theorem place_write_of_status (h : q.Indexed) (hk : q.objects[k]? = some t) (hid : t'.id = t.id)
    (hstatus : t'.status = t.status) : (q.write k t').place e = q.place e := by
  by_cases he : e.id = t.id
  · rw [place_write_of_eq h hk hid he, place_of_object h hk he, hstatus]
  · exact place_write_of_ne h hk hid he

/-- A place is that of the object of its entry. -/
theorem item_of_place (h : q.Indexed) (hk : q.objects[k]? = some t) {a : InLine ℤ ℕ}
    (ha : q.place e = some a) : a.item = k ↔ e.id = t.id := by
  obtain ⟨⟨j, u⟩, hcurrent, hplace⟩ := Option.bind_eq_some_iff.mp ha
  obtain ⟨hj, hu⟩ := (current_eq_some_iff h).mp hcurrent
  dsimp only at hplace
  split_ifs at hplace
  obtain rfl := Option.some.inj hplace
  constructor
  · rintro rfl
    rw [← hu, Option.some.inj (hj.symm.trans hk)]
  · intro he
    have htask := (h e.id j).mpr ⟨u, hj, hu⟩
    rw [he, (h t.id k).mpr ⟨t, hk, rfl⟩] at htask
    exact (Option.some.inj htask).symm

/-! ## The heap and the line -/

/-- The entries of the heap that have a place are those of the line. -/
structure Shows (q : MemoryQueue J) (line : PriorityLine ℤ ℕ) : Prop where
  indexed : q.Indexed
  ids : (q.ready.map ReadyEntry.id).Nodup
  known : ∀ e ∈ q.ready, ∃ k, q.tasks e.id = some k
  sorted : q.ready.Pairwise ReadyEntry.le
  sequence : ∀ e ∈ q.ready, e.sequence ≤ q.sequence
  turns : line.turns = q.sequence
  places : line.places = q.ready.filterMap q.place

theorem shows_nil : Shows ({} : MemoryQueue J) {} where
  indexed := by
    intro id k
    simp
  ids := List.nodup_nil
  known := nofun
  sorted := List.Pairwise.nil
  sequence := nofun
  turns := rfl
  places := rfl

variable {line : PriorityLine ℤ ℕ}

/-- An object is written so that no place changes. -/
theorem shows_write (h : q.Shows line) (hk : q.objects[k]? = some t) (hid : t'.id = t.id)
    (hplace : ∀ e ∈ q.ready, (q.write k t').place e = q.place e) : (q.write k t').Shows line where
  indexed := indexed_write h.indexed hk hid
  ids := h.ids
  known := h.known
  sorted := h.sorted
  sequence := h.sequence
  turns := h.turns
  places := h.places.trans (List.filterMap_congr fun e he => (hplace e he).symm)

/-- A task that is queued no longer leaves the line. -/
theorem shows_leave (h : q.Shows line) (hk : q.objects[k]? = some t) (hid : t'.id = t.id)
    (hstatus : t'.status ≠ .queued) : (q.write k t').Shows (line.leave k) where
  indexed := indexed_write h.indexed hk hid
  ids := h.ids
  known := h.known
  sorted := h.sorted
  sequence := h.sequence
  turns := h.turns
  places := by
    rw [PriorityLine.leave, h.places, List.filter_filterMap]
    refine List.filterMap_congr ?_
    intro e he
    by_cases hentry : e.id = t.id
    · rw [place_write_of_eq h.indexed hk hid hentry, if_neg hstatus]
      cases hplace : q.place e with
      | none => rfl
      | some a => simp [Option.filter, (item_of_place h.indexed hk hplace).mpr hentry]
    · rw [place_write_of_ne h.indexed hk hid hentry]
      cases hplace : q.place e with
      | none => rfl
      | some a =>
        have hitem : a.item ≠ k := fun heq => hentry ((item_of_place h.indexed hk hplace).mp heq)
        simp [Option.filter, hitem]

/-- A new entry is the last of its priority, as the new place is. -/
theorem shows_push (h : q.Shows line) (hk : q.objects[k]? = some t) (hqueued : t.status = .queued)
    (hnew : ∀ e ∈ q.ready, e.id ≠ t.id) : (q.push t).Shows (line.join t.priority k) := by
  set entry : ReadyEntry := ⟨t.priority, q.sequence + 1, t.id⟩ with hentry
  have hplace : q.place entry = some ⟨t.priority, q.sequence + 1, k⟩ := by
    rw [place_of_object h.indexed hk rfl, if_pos hqueued]
  have hready : (q.push t).ready = q.ready.orderedInsert ReadyEntry.le entry := rfl
  have hperm := List.perm_orderedInsert ReadyEntry.le entry q.ready
  -- the new entry stands in front of those with a lower priority
  have hle : ∀ b ∈ q.ready, (ReadyEntry.le entry b ↔ b.priority < t.priority) := by
    intro b hb
    have hsequence := h.sequence b hb
    unfold ReadyEntry.le
    dsimp only [entry]
    omega
  refine ⟨h.indexed, ?_, ?_, ?_, ?_, ?_, ?_⟩
  · rw [hready, (hperm.map _).nodup_iff, List.map_cons, List.nodup_cons]
    refine ⟨?_, h.ids⟩
    intro hmem
    obtain ⟨e, he, hid⟩ := List.mem_map.mp hmem
    exact hnew e he hid
  · intro e he
    rcases (List.mem_orderedInsert _).mp he with rfl | he
    · exact ⟨k, (h.indexed t.id k).mpr ⟨t, hk, rfl⟩⟩
    · exact h.known e he
  · exact List.Pairwise.orderedInsert _ _ h.sorted
  · intro e he
    rcases (List.mem_orderedInsert _).mp he with rfl | he
    · exact le_rfl
    · exact (h.sequence e he).trans (Nat.le_succ _)
  · exact congrArg (· + 1) h.turns
  · rw [PriorityLine.join, h.turns, h.places, hready]
    refine (PriorityLine.filterMap_orderedInsert hplace ?_ ?_).symm
    · intro b hb a ha
      obtain ⟨⟨j, u⟩, -, hplace'⟩ := Option.bind_eq_some_iff.mp ha
      dsimp only at hplace'
      split_ifs at hplace'
      obtain rfl := Option.some.inj hplace'
      exact hle b hb
    · refine h.sorted.imp_of_mem ?_
      intro b c hb hc hbc hab
      rw [hle b hb] at hab
      rw [hle c hc]
      unfold ReadyEntry.le at hbc
      omega

/-! ## What is put in -/

theorem existing_eq (q : MemoryQueue J) (now : ℚ) (key : Text) :
    ∃ dedup, (q.existing now key).2 = { q with dedup } := by
  unfold existing findDedup
  split_ifs
  · exact ⟨q.dedup, rfl⟩
  · split
    · exact ⟨q.dedup, rfl⟩
    · dsimp only
      split_ifs
      · exact ⟨_, rfl⟩
      · split
        · exact ⟨_, rfl⟩
        · exact ⟨q.dedup, rfl⟩

theorem rememberDedup_eq (env : MemoryQueueSettings) (q : MemoryQueue J) (now : ℚ)
    (t : QueueTask J) : ∃ dedup, q.rememberDedup env now t = { q with dedup } := by
  unfold rememberDedup
  dsimp only
  split_ifs
  · exact ⟨q.dedup, rfl⟩
  · exact ⟨_, rfl⟩
  · exact ⟨_, rfl⟩

theorem shows_dedup (h : q.Shows line) (dedup : Text → Option (Text × Option ℚ)) :
    Shows { q with dedup } line :=
  ⟨h.indexed, h.ids, h.known, h.sorted, h.sequence, h.turns, h.places⟩

/-- An object is stored under a new id. -/
theorem shows_store (h : q.Shows line) (hnew : q.tasks t.id = none) :
    Shows { q with
      objects := q.objects ++ [t]
      tasks := Function.update q.tasks t.id (some q.objects.length) } line := by
  set q' : MemoryQueue J := { q with
    objects := q.objects ++ [t]
    tasks := Function.update q.tasks t.id (some q.objects.length) } with hq'
  have hindexed : q'.Indexed := by
    intro id j
    change Function.update q.tasks t.id (some q.objects.length) id = some j ↔
      ∃ u, (q.objects ++ [t])[j]? = some u ∧ u.id = id
    by_cases hid : id = t.id
    · subst hid
      rw [Function.update_self]
      constructor
      · intro hj
        obtain rfl := Option.some.inj hj
        exact ⟨t, List.getElem?_concat_length, rfl⟩
      · rintro ⟨u, hu, huid⟩
        by_cases hj : j < q.objects.length
        · rw [List.getElem?_append_left hj] at hu
          have htask := (h.indexed t.id j).mpr ⟨u, hu, huid⟩
          rw [hnew] at htask
          cases htask
        · have hlt := (List.getElem?_eq_some_iff.mp hu).1
          rw [List.length_append, List.length_singleton] at hlt
          exact congrArg some (by omega)
    · rw [Function.update_of_ne hid, h.indexed]
      constructor
      · rintro ⟨u, hu, huid⟩
        refine ⟨u, ?_, huid⟩
        rw [List.getElem?_append_left (List.getElem?_eq_some_iff.mp hu).1]
        exact hu
      · rintro ⟨u, hu, huid⟩
        refine ⟨u, ?_, huid⟩
        by_cases hj : j < q.objects.length
        · rw [List.getElem?_append_left hj] at hu
          exact hu
        · rw [List.getElem?_append_right (by omega)] at hu
          obtain rfl := List.mem_singleton.mp (List.mem_of_getElem? hu)
          exact absurd huid.symm hid
  have hknown : ∀ e ∈ q.ready, e.id ≠ t.id := by
    intro e he heq
    obtain ⟨k, hk⟩ := h.known e he
    rw [heq, hnew] at hk
    cases hk
  refine ⟨hindexed, h.ids, ?_, h.sorted, h.sequence, h.turns, ?_⟩
  · intro e he
    obtain ⟨k, hk⟩ := h.known e he
    exact ⟨k, (Function.update_of_ne (hknown e he) _ _).trans hk⟩
  · refine h.places.trans (List.filterMap_congr ?_)
    intro e he
    have hcurrent : q'.current e.id = q.current e.id := by
      obtain ⟨k, hk⟩ := h.known e he
      obtain ⟨u, hu, huid⟩ := (h.indexed e.id k).mp hk
      have hu' : q'.objects[k]? = some u :=
        (List.getElem?_append_left (List.getElem?_eq_some_iff.mp hu).1).trans hu
      rw [(current_eq_some_iff h.indexed).mpr ⟨hu, huid⟩,
        (current_eq_some_iff hindexed).mpr ⟨hu', huid⟩]
    rw [place, place, hcurrent]

/-- A new task joins the line behind those of its priority. -/
theorem shows_add (h : q.Shows line) {args : EnqueueArgs J} (hnew : q.tasks args.id = none) :
    (q.add env now args).Shows
      (line.join (args.priority.getD env.priority) q.objects.length) := by
  set t := QueueTask.create env.queueName args.taskType args.payload args.dedupKey
    (args.priority.getD env.priority) (args.maxAttempts.getD (max 1 env.maxAttempts)) args.id now
    with ht
  have hstored := shows_store (t := t) h hnew
  obtain ⟨dedup, hdedup⟩ := rememberDedup_eq env { q with
    objects := q.objects ++ [t]
    tasks := Function.update q.tasks t.id (some q.objects.length) } now t
  have hadd : q.add env now args = push { q with
      objects := q.objects ++ [t]
      tasks := Function.update q.tasks t.id (some q.objects.length)
      dedup } t := congrArg (fun q => push q t) hdedup
  rw [hadd]
  refine shows_push (shows_dedup hstored dedup) List.getElem?_concat_length rfl ?_
  intro e he heq
  obtain ⟨k, hk⟩ := h.known e he
  have hnone : q.tasks t.id = none := hnew
  rw [heq, hnone] at hk
  cases hk

theorem length_add (q : MemoryQueue J) (args : EnqueueArgs J) :
    (q.add env now args).objects.length = q.objects.length + 1 := by
  simp only [add, push, objects_rememberDedup, List.length_append, List.length_singleton]

/-- An `enqueue` forgets a reservation at most, or puts in a new task. -/
theorem enqueue_cases (env : MemoryQueueSettings) (q : MemoryQueue J) (now : ℚ)
    (args : EnqueueArgs J) : ∃ dedup, (q.enqueue env now args).1 = { q with dedup } ∨
      (q.enqueue env now args).1 = add env { q with dedup } now args := by
  obtain ⟨dedup, hexisting⟩ := existing_eq q now args.dedupKey
  unfold enqueue
  by_cases hclosed : q.closed = true
  · rw [if_pos hclosed]
    exact ⟨q.dedup, .inl rfl⟩
  · rw [if_neg hclosed]
    rcases hfound : q.existing now args.dedupKey with ⟨found, q'⟩
    obtain rfl : q' = { q with dedup } := by rw [← hexisting, hfound]
    refine ⟨dedup, ?_⟩
    cases found with
    | some k => exact .inl rfl
    | none =>
      dsimp only
      split_ifs
      · exact .inl rfl
      · exact .inr rfl

/-- **`enqueue`**: a new task joins the line. -/
theorem shows_enqueue (h : q.Shows line) {args : EnqueueArgs J} (hnew : q.tasks args.id = none) :
    (q.enqueue env now args).1.Shows
      (if (q.enqueue env now args).1.objects.length = q.objects.length then line
      else line.join (args.priority.getD env.priority) q.objects.length) := by
  obtain ⟨dedup, hsame | hadd⟩ := enqueue_cases env q now args
  · rw [hsame, if_pos rfl]
    exact shows_dedup h dedup
  · rw [hadd, length_add, if_neg (Nat.succ_ne_self _)]
    exact shows_add (shows_dedup h dedup) hnew

/-! ## What is claimed -/

/-- The first entry of the heap is popped. -/
theorem shows_pop {rest : List ReadyEntry} (h : Shows { q with ready := e :: rest } line) :
    Shows { q with ready := rest } { line with places := rest.filterMap q.place } where
  indexed := h.indexed
  ids := (List.nodup_cons.mp h.ids).2
  known := fun e' he => h.known e' (List.mem_cons_of_mem e he)
  sorted := (List.pairwise_cons.mp h.sorted).2
  sequence := fun e' he => h.sequence e' (List.mem_cons_of_mem e he)
  turns := h.turns
  places := rfl

/-- An entry without a place is popped. -/
theorem shows_pop_of_none {rest : List ReadyEntry} (h : Shows { q with ready := e :: rest } line)
    (hplace : q.place e = none) : Shows { q with ready := rest } line := by
  have hplaces : line.places = rest.filterMap q.place :=
    h.places.trans (List.filterMap_cons_none hplace)
  have hpop := shows_pop h
  rw [← hplaces] at hpop
  exact hpop

/-- **`claim`** pops the entries of the first places of the line, and those that have none. -/
theorem shows_claimFrom {consumer : Text} {n : ℕ} {rest : List ReadyEntry}
    (h : Shows { q with ready := rest } line) :
    (claimFrom env now consumer q n rest).2 = (line.serve n).1 ∧
      (claimFrom env now consumer q n rest).1.Shows (line.serve n).2 := by
  induction rest generalizing q n line with
  | nil =>
    obtain ⟨places, turns⟩ := line
    obtain rfl : places = [] := h.places
    cases n with
    | zero => exact ⟨rfl, h⟩
    | succ n => exact ⟨rfl, h⟩
  | cons e rest ih =>
    cases n with
    | zero => exact ⟨rfl, h⟩
    | succ n =>
      rw [claimFrom]
      cases hcurrent : q.current e.id with
      | none =>
        have hplace : q.place e = none := by rw [place, hcurrent, Option.bind_none]
        exact ih (shows_pop_of_none h hplace)
      | some found =>
        obtain ⟨k, t⟩ := found
        dsimp only
        split_ifs with hqueued
        · obtain ⟨hk, hid⟩ := (current_eq_some_iff h.indexed).mp hcurrent
          have hplaces : line.places =
              ⟨e.priority, e.sequence, k⟩ :: rest.filterMap q.place := by
            have hplace := place_of_object h.indexed hk hid.symm
            rw [if_pos hqueued] at hplace
            exact h.places.trans (List.filterMap_cons_some hplace)
          set taken : QueueTask J := { t with
            status := .running
            leaseOwner := consumer
            leaseUntil := now + max 1 env.leaseSeconds
            updatedAt := now } with htaken
          have hstays : ∀ e' ∈ rest, (q.write k taken).place e' = q.place e' := by
            intro e' he'
            refine place_write_of_ne h.indexed hk rfl ?_
            intro heq
            exact (List.nodup_cons.mp h.ids).1 (List.mem_map.mpr ⟨e', he', heq.trans hid⟩)
          have hwrite : Shows { q.write k taken with ready := rest }
              { line with places := rest.filterMap q.place } :=
            shows_write (shows_pop h) hk rfl hstays
          obtain ⟨hclaimed, hrest⟩ := ih (n := n) hwrite
          constructor
          · dsimp only
            rw [hclaimed, PriorityLine.serve, PriorityLine.serve, hplaces, List.take_succ_cons,
              List.map_cons]
          · rw [PriorityLine.serve, hplaces, List.drop_succ_cons]
            exact hrest
        · have hplace : q.place e = none := by
            rw [place, hcurrent, Option.bind_some]
            exact if_neg hqueued
          exact ih (shows_pop_of_none h hplace)

theorem length_claimFrom (q : MemoryQueue J) (consumer : Text) (n : ℕ) (rest : List ReadyEntry) :
    (claimFrom env now consumer q n rest).1.objects.length = q.objects.length := by
  induction rest generalizing q n with
  | nil =>
    cases n with
    | zero => rfl
    | succ n => rfl
  | cons e rest ih =>
    cases n with
    | zero => rfl
    | succ n =>
      rw [claimFrom]
      split
      · exact ih q (n + 1)
      · split_ifs
        · exact (ih _ n).trans List.length_set
        · exact ih q (n + 1)

end MemoryQueue

namespace LinedQueue

open MemoryQueue (plainQueue)

variable {env : MemoryQueueSettings} {s : LinedQueue J} {move : ℚ × MemoryOp J}

/-- The heap shows the line. -/
def Lined (s : LinedQueue J) : Prop := s.queue.Shows s.line

/-- A task that is found by its id is queued no longer. -/
theorem shows_settle (h : s.Lined) {id : Text} {write : QueueTask J → QueueTask J}
    (hid : ∀ t, (write t).id = t.id) (hstatus : ∀ t, (write t).status ≠ .queued) :
    MemoryQueue.Shows
      (match s.queue.current id with
      | none => s.queue
      | some (k, t) => s.queue.write k (write t))
      (s.line.apply ((s.queue.current id).elim .keep fun (k, _) => .leave k)) := by
  cases hcurrent : s.queue.current id with
  | none => exact h
  | some found =>
    obtain ⟨k, t⟩ := found
    exact MemoryQueue.shows_leave h (MemoryQueue.object_of_current hcurrent) (hid t) (hstatus t)

/-- **One operation**: the heap shows the line afterwards. -/
theorem lined_step (h : s.Lined) (horderly : s.queue.Orderly move) : (s.step env move).Lined := by
  obtain ⟨now, op⟩ := move
  cases op with
  | enqueue args =>
    have hqueue := @MemoryQueue.shows_enqueue J env s.queue now s.line h args horderly
    simp only [Lined, step, MemoryQueue.effect, MemoryQueue.step]
    split_ifs at hqueue ⊢
    · exact hqueue
    · exact hqueue
  | claim consumer count => exact (MemoryQueue.shows_claimFrom h).2
  | close => exact ⟨h.indexed, h.ids, h.known, h.sorted, h.sequence, h.turns, h.places⟩
  | heartbeat id =>
    simp only [Lined, step, MemoryQueue.effect, MemoryQueue.step, MemoryQueue.heartbeat]
    cases hcurrent : s.queue.current id with
    | none => exact h
    | some found =>
      obtain ⟨k, t⟩ := found
      have hk := MemoryQueue.object_of_current hcurrent
      dsimp only
      split_ifs with hrunning
      · refine MemoryQueue.shows_write h hk rfl ?_
        intro e _
        exact MemoryQueue.place_write_of_status h.indexed hk rfl rfl
      · exact h
  | ack id result => exact shows_settle h (fun _ => rfl) (fun _ => by simp)
  | cancel id => exact shows_settle h (fun _ => rfl) (fun _ => by simp)
  | fail id error retryable =>
    simp only [Lined, step, MemoryQueue.effect, MemoryQueue.step, MemoryQueue.fail]
    cases hcurrent : s.queue.current id with
    | none => exact h
    | some found =>
      obtain ⟨k, t⟩ := found
      obtain ⟨hk, hid⟩ := (MemoryQueue.current_eq_some_iff h.indexed).mp hcurrent
      dsimp only [Option.elim_some]
      split_ifs with hretry
      · have hnone : ∀ e ∈ s.queue.ready, e.id ≠ t.id := by
          rw [hid]
          exact horderly (k, t) hcurrent hretry
        have hwrite : (s.queue.write k (MemoryQueue.retriedTask now error retryable t)).Shows
            s.line := by
          refine MemoryQueue.shows_write h hk rfl ?_
          intro e he
          exact MemoryQueue.place_write_of_ne h.indexed hk rfl (hnone e he)
        exact MemoryQueue.shows_push hwrite
          (List.getElem?_set_self (List.getElem?_eq_some_iff.mp hk).1) hretry hnone
      · exact MemoryQueue.shows_leave h hk rfl hretry

/-! ## Runs -/

/-- What is claimed is what the line serves. -/
theorem serves_of_lined (h : s.Lined) : s.Serves env move := by
  obtain ⟨now, op⟩ := move
  unfold Serves
  cases op with
  | claim consumer count => exact (MemoryQueue.shows_claimFrom h).1
  | enqueue args =>
    simp only [MemoryQueue.claimed, MemoryQueue.effect]
    split_ifs
    · rfl
    · rfl
  | close => rfl
  | heartbeat id => rfl
  | ack id result =>
    simp only [MemoryQueue.claimed, MemoryQueue.effect]
    cases s.queue.current id with
    | none => rfl
    | some found => rfl
  | cancel id =>
    simp only [MemoryQueue.claimed, MemoryQueue.effect]
    cases s.queue.current id with
    | none => rfl
    | some found => rfl
  | fail id error retryable =>
    simp only [MemoryQueue.claimed, MemoryQueue.effect]
    cases s.queue.current id with
    | none => rfl
    | some found =>
      dsimp only [Option.elim_some]
      split_ifs
      · rfl
      · rfl

/-- Who joins is put in again, or is a new task, which has the next number. -/
theorem joined_step (s : LinedQueue J) (move : ℚ × MemoryOp J) :
    ((s.step env move).queue.objects.length = s.queue.objects.length ∧
      (s.queue.effect env move).joined = s.queue.retried move) ∨
    ((s.step env move).queue.objects.length = s.queue.objects.length + 1 ∧
      (s.queue.effect env move).joined = [s.queue.objects.length] ∧
      s.queue.retried move = []) := by
  obtain ⟨now, op⟩ := move
  cases op with
  | enqueue args =>
    simp only [step, MemoryQueue.step, MemoryQueue.effect, MemoryQueue.retried]
    obtain ⟨dedup, hsame | hadd⟩ := MemoryQueue.enqueue_cases env s.queue now args
    · left
      simp only [hsame, if_true]
      exact ⟨trivial, rfl⟩
    · right
      simp only [hadd, MemoryQueue.length_add, Nat.succ_ne_self, if_false]
      exact ⟨trivial, rfl, trivial⟩
  | claim consumer count => exact .inl ⟨MemoryQueue.length_claimFrom _ _ _ _, rfl⟩
  | close => exact .inl ⟨rfl, rfl⟩
  | heartbeat id =>
    left
    simp only [step, MemoryQueue.step, MemoryQueue.heartbeat]
    cases s.queue.current id with
    | none => exact ⟨rfl, rfl⟩
    | some found =>
      dsimp only
      split_ifs
      · exact ⟨List.length_set, rfl⟩
      · exact ⟨rfl, rfl⟩
  | ack id result =>
    left
    simp only [step, MemoryQueue.step, MemoryQueue.effect, MemoryQueue.retried, MemoryQueue.ack]
    cases s.queue.current id with
    | none => exact ⟨rfl, rfl⟩
    | some found => exact ⟨List.length_set, rfl⟩
  | cancel id =>
    left
    simp only [step, MemoryQueue.step, MemoryQueue.effect, MemoryQueue.retried, MemoryQueue.cancel]
    cases s.queue.current id with
    | none => exact ⟨rfl, rfl⟩
    | some found => exact ⟨List.length_set, rfl⟩
  | fail id error retryable =>
    left
    simp only [step, MemoryQueue.step, MemoryQueue.effect, MemoryQueue.retried, MemoryQueue.fail]
    cases s.queue.current id with
    | none => exact ⟨rfl, rfl⟩
    | some found =>
      dsimp only [Option.elim_some]
      split_ifs
      · exact ⟨List.length_set, rfl⟩
      · exact ⟨List.length_set, rfl⟩

/-- The tasks there are and those that are put in again are those there were and those that join. -/
theorem count_joined (s : LinedQueue J) (move : ℚ × MemoryOp J) (a : ℕ) :
    (List.range s.queue.objects.length).count a + (s.queue.effect env move).joined.count a =
      (List.range (s.step env move).queue.objects.length).count a +
        (s.queue.retried move).count a := by
  rcases @joined_step J env s move with ⟨hlength, hjoined⟩ | ⟨hlength, hjoined, hretried⟩
  · rw [hlength, hjoined]
  · rw [hlength, hjoined, hretried, List.range_succ, List.count_append, List.count_nil,
      Nat.add_zero]

theorem count_run {moves : List (ℚ × MemoryOp J)} (h : s.Lined)
    (horderly : Run.Along (step env) (fun s move => s.queue.Orderly move) s moves) (a : ℕ) :
    s.line.count a + (List.range (moves.foldl (step env) s).queue.objects.length).count a +
        (Run.trace (step env) (fun s => s.queue.retried) s moves).count a =
      (Run.trace (step env) (fun s => s.queue.claimed env) s moves).count a +
        (Run.trace (step env) (withdrawn env) s moves).count a +
        (moves.foldl (step env) s).line.count a + (List.range s.queue.objects.length).count a := by
  induction moves generalizing s with
  | nil =>
    simp only [Run.trace, List.foldl_nil, List.count_nil]
    omega
  | cons move moves ih =>
    have hrest := ih (lined_step h horderly.1) horderly.2
    have hjoined := @count_joined J env s move a
    have hcount := PriorityLine.count_apply (l := s.line) (s.queue.effect env move) a
    have hserves : s.queue.claimed env move = s.line.served (s.queue.effect env move) :=
      serves_of_lined h
    rw [← hserves] at hcount
    simp only [Run.trace, List.count_append, List.foldl_cons]
    change _ = (s.queue.claimed env move).count a + (s.withdrawn env move).count a +
      (s.step env move).line.count a at hcount
    omega

/-- **Claims serve the line**: in every run in which new tasks have new ids, and tasks are put in
again after their entry was popped, what waits stands in the order of the priorities and then in
the order in which it was put in, and a claim returns the first of it.  Each task is claimed or
withdrawn once, or waits, and once more for every time it was put in again. -/
theorem served_in_turn (env : MemoryQueueSettings) (moves : List (ℚ × MemoryOp J))
    (h : Run.Along (step env) (fun s move => s.queue.Orderly move) {} moves) :
    (∀ n, (Run.stateAt (step env) {} moves n).line.Ordered) ∧
    Run.Along (step env) (Serves env) {} moves ∧
    ∀ k < (moves.foldl (step env) {}).queue.objects.length,
      (Run.trace (step env) (fun s => s.queue.claimed env) {} moves).count k +
          (Run.trace (step env) (withdrawn env) {} moves).count k +
          (moves.foldl (step env) {}).line.count k =
        1 + (Run.trace (step env) (fun s => s.queue.retried) {} moves).count k := by
  have hstart : Lined ({} : LinedQueue J) := MemoryQueue.shows_nil
  refine ⟨?_, ?_, ?_⟩
  · intro n
    refine Run.invariant (fun s : LinedQueue J => s.line.Ordered) PriorityLine.ordered_nil ?_
    intro s hs move _
    exact PriorityLine.ordered_apply hs _
  · refine Run.Along.of_invariant Lined hstart h ?_ ?_
    · intro s move hs horderly
      exact lined_step hs horderly
    · intro s move hs _
      exact serves_of_lined hs
  · intro k hk
    have hcount := count_run hstart h k
    have hone : (List.range (moves.foldl (step env) {}).queue.objects.length).count k = 1 :=
      List.count_eq_one_of_mem List.nodup_range (List.mem_range.mpr hk)
    have hnone : ({} : LinedQueue J).line.count k = 0 := rfl
    have hno : (List.range ({} : LinedQueue J).queue.objects.length).count k = 0 := rfl
    omega

/-- Four tasks with two priorities, two of which are claimed at once; one that failed is put in
again. -/
def fourTasks : List (ℚ × MemoryOp Unit) :=
  [(0, .enqueue { taskType := of "demo", payload := (), id := of "a" }),
    (1, .enqueue { taskType := of "demo", payload := (), priority := some 5, id := of "b" }),
    (2, .enqueue { taskType := of "demo", payload := (), id := of "c" }),
    (3, .enqueue { taskType := of "demo", payload := (), priority := some 5, id := of "d" }),
    (4, .claim (of "w") 2), (5, .fail (of "b") (of "timeout") true), (6, .claim (of "w") 1),
    (7, .cancel (of "a")), (8, .claim (of "w") 5)]

/-- Those with the higher priority are claimed first, and the one that is cancelled is not. -/
theorem served_fourTasks :
    (∀ n, (Run.stateAt (step plainQueue) {} fourTasks n).line.Ordered) ∧
    Run.Along (step plainQueue) (Serves plainQueue) {} fourTasks ∧
    ∀ k < (fourTasks.foldl (step plainQueue) {}).queue.objects.length,
      (Run.trace (step plainQueue) (fun s => s.queue.claimed plainQueue) {} fourTasks).count k +
          (Run.trace (step plainQueue) (withdrawn plainQueue) {} fourTasks).count k +
          (fourTasks.foldl (step plainQueue) {}).line.count k =
        1 + (Run.trace (step plainQueue) (fun s => s.queue.retried) {} fourTasks).count k :=
  served_in_turn plainQueue fourTasks (by decide +kernel)

end LinedQueue

end WolfNas
