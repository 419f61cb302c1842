import WolfNas.Cache.Adapters
import WolfNas.Limit.Semaphores
import Mathlib.Data.List.Perm.Subperm

/-!
# Concurrent holders, in Redis

A backend in Redis has a sorted set of leases for each key, one for each holder, with the time at
which it ends.  A call removes the leases that have ended, counts what is left, and adds its own,
each in a command of its own.

## Main definitions

* `Leases`, `LeaseMove`, `Leases.step` — `acquire_concurrency` and `release_concurrency` of a
  backend in Redis, one command at a time.
* `Leases.Steady` — nothing is added between a count and what follows from it, and no holder loses
  its lease.

## Main results

* `Leases.within_of_along` — in runs of such steps the holders are within their limit.
* `Leases.limit_kept` — the same of both backends.
* `Leases.limit_passed` — a limit that is changed, and two calls that count before either adds.
-/

namespace WolfNas

open Text

/-- Where a call of `acquire_concurrency`, and of `release_concurrency` with its token, is. -/
inductive LeasePhase
  | fresh
  | clearing (key : Text) (limit : ℤ)
  | counting (key : Text) (limit : ℤ) (now : ℚ)
  | adding (key : Text) (limit : ℤ) (now : ℚ)
  | added (key : Text)
  | holding (key : Text) (leased : Bool)
  | done
  deriving DecidableEq

/-- The leases in Redis, the calls so far, and who holds.  The token of a call is its number. -/
structure Leases where
  clock : ℚ := 0
  leases : Text → List (ℕ × ℚ) := fun _ => []
  expires : Text → WithTop ℚ := fun _ => ⊤
  calls : ℕ → LeasePhase := fun _ => .fresh
  held : List Holder := []

/-- One step of a call: `again` where it has time to try once more.  `stray` is a release with any
token; time passes. -/
inductive LeaseMove
  | acquire (i : ℕ) (key : Text) (limit : ℤ) (available : Bool)
  | clear (i : ℕ) (link : RedisLink)
  | count (i : ℕ) (link : RedisLink) (again : Bool)
  | add (i : ℕ) (link : RedisLink) (again : Bool)
  | expire (i : ℕ) (link : RedisLink)
  | release (i : ℕ) (link : RedisLink)
  | stray (key : Text) (token : ℕ) (link : RedisLink)
  | tick (later : ℚ≥0)

namespace Leases

/-- `_conc_ttl`. -/
def concTtl : ℚ := 300

/-- The members of a key, where it has not expired. -/
def members (w : Leases) (key : Text) : List (ℕ × ℚ) :=
  if (w.clock : WithTop ℚ) < w.expires key then w.leases key else []

/-- The members of a key after a command that reaches Redis: a key that had expired, or that has
no member, has no time to live. -/
def write (w : Leases) (key : Text) (members : List (ℕ × ℚ)) : Leases :=
  { w with
    leases := Function.update w.leases key members
    expires := Function.update w.expires key
      (if (w.clock : WithTop ℚ) < w.expires key ∧ members ≠ [] then w.expires key else ⊤) }

/-- A call gets on. -/
def enter (w : Leases) (i : ℕ) (phase : LeasePhase) : Leases :=
  { w with calls := Function.update w.calls i phase }

/-- A call tries once more, or gives up. -/
def retry (w : Leases) (i : ℕ) (key : Text) (limit : ℤ) (again : Bool) : Leases :=
  w.enter i (if again then .clearing key limit else .done)

/-- A call is admitted. -/
def letIn (w : Leases) (i : ℕ) (key : Text) (limit : ℤ) (phase : LeasePhase) : Leases :=
  { w.enter i phase with held := ⟨i, key, limit⟩ :: w.held }

/-- `acquire_concurrency`, until it asks Redis: a call without a limit holds nothing, and where
Redis is not available a call is let through. -/
def acquire (w : Leases) (i : ℕ) (key : Text) (limit : ℤ) (available : Bool) : Leases :=
  if limit ≤ 0 then w.enter i .done
  else if available then w.enter i (.clearing key limit)
  else w.letIn i key limit (.holding key false)

/-- `zremrangebyscore(name, 0, now)`. -/
def clear (w : Leases) (i : ℕ) (key : Text) (limit : ℤ) (link : RedisLink) : Leases :=
  let left := (w.members key).filter fun m => ¬(0 ≤ m.2 ∧ m.2 ≤ w.clock)
  (if link.reaches then w.write key left else w).enter i (.counting key limit w.clock)

/-- `zcard(name)`: without an answer the count is 0. -/
def count (w : Leases) (i : ℕ) (key : Text) (limit : ℤ) (now : ℚ) (link : RedisLink)
    (again : Bool) : Leases :=
  let n := if link = .answered then (w.members key).length else 0
  if (n : ℤ) < limit then w.enter i (.adding key limit now) else w.retry i key limit again

/-- `zadd(name, {member: now + ttl})`: a call is admitted where it is answered that its lease is
new. -/
def add (w : Leases) (i : ℕ) (key : Text) (limit : ℤ) (now : ℚ) (link : RedisLink)
    (again : Bool) : Leases :=
  let there := (w.members key).any fun m => m.1 = i
  let members := if there then
      (w.members key).map fun m => if m.1 = i then (i, now + concTtl) else m
    else w.members key ++ [(i, now + concTtl)]
  let w' := if link.reaches then w.write key members else w
  if link = .answered ∧ there = false then w'.letIn i key limit (.added key)
  else w'.retry i key limit again

/-- `expire(name, ttl + 60)`. -/
def expire (w : Leases) (i : ℕ) (key : Text) (link : RedisLink) : Leases :=
  { w.enter i (.holding key true) with
    expires := if link.reaches ∧ w.members key ≠ [] then
        Function.update w.expires key ((w.clock + (concTtl + 60) : ℚ) : WithTop ℚ)
      else w.expires }

/-- `zrem(name, token)`. -/
def remove (w : Leases) (key : Text) (token : ℕ) (link : RedisLink) : Leases :=
  if link.reaches then w.write key ((w.members key).filter fun m => m.1 ≠ token) else w

/-- `release_concurrency`: without a token it does nothing. -/
def release (w : Leases) (i : ℕ) (key : Text) (leased : Bool) (link : RedisLink) : Leases :=
  let w' := if leased then w.remove key i link else w
  { w'.enter i .done with held := Holder.without i w.held }

/-- One step. -/
def step (w : Leases) : LeaseMove → Leases
  | .acquire i key limit available => match w.calls i with
    | .fresh => w.acquire i key limit available
    | _ => w
  | .clear i link => match w.calls i with
    | .clearing key limit => w.clear i key limit link
    | _ => w
  | .count i link again => match w.calls i with
    | .counting key limit now => w.count i key limit now link again
    | _ => w
  | .add i link again => match w.calls i with
    | .adding key limit now => w.add i key limit now link again
    | _ => w
  | .expire i link => match w.calls i with
    | .added key => w.expire i key link
    | _ => w
  | .release i link => match w.calls i with
    | .holding key leased => w.release i key leased link
    | _ => w
  | .stray key token link => w.remove key token link
  | .tick later => { w with clock := w.clock + later }

/-- Redis is available to who has a limit; whoever adds a lease does so while there are fewer than
its limit, and before the lease has ended; nobody removes the lease of a holder; and no holder is
in flight until its lease ends or its key expires. -/
def Steady (w : Leases) : LeaseMove → Prop
  | .acquire i _ limit available => w.calls i = .fresh → 0 < limit → available = true
  | .add i _ _ => match w.calls i with
    | .adding key limit now => ((w.members key).length : ℤ) < limit ∧ w.clock < now + concTtl
    | _ => True
  | .stray key token _ => ∀ h ∈ w.held, h.key = key → h.caller ≠ token
  | .tick later => ∀ h ∈ w.held, ((w.clock + later : ℚ) : WithTop ℚ) < w.expires h.key ∧
      ∀ m ∈ w.leases h.key, m.1 = h.caller → w.clock + later < m.2
  | _ => True

instance (w : Leases) (move : LeaseMove) : Decidable (w.Steady move) := by
  cases move <;> dsimp only [Steady] <;> try infer_instance
  split <;> infer_instance

/-- What holds after every step: every holder has its lease, and holds by it. -/
structure Good (w : Leases) : Prop where
  leased : ∀ h ∈ w.held, (w.clock : WithTop ℚ) < w.expires h.key ∧
    ∃ m ∈ w.leases h.key, m.1 = h.caller
  lasting : ∀ h ∈ w.held, ∀ m ∈ w.leases h.key, m.1 = h.caller → w.clock < m.2
  used : ∀ h ∈ w.held, w.calls h.caller = .added h.key ∨ w.calls h.caller = .holding h.key true
  added : ∀ i key, w.calls i = .added key → ∃ h ∈ w.held, h.caller = i ∧ h.key = key
  holding : ∀ i key leased, w.calls i = .holding key leased →
    leased = true ∧ ∃ h ∈ w.held, h.caller = i ∧ h.key = key
  nodup : (w.held.map Holder.caller).Nodup
  ranked : ∀ key, Holder.Ranked (Holder.ofKey key w.held)

theorem good_new : Good {} where
  leased _ h := by cases h
  lasting _ h := by cases h
  used _ h := by cases h
  added _ _ h := by cases h
  holding _ _ _ h := by cases h
  nodup := List.nodup_nil
  ranked _ := trivial

variable {w : Leases} {i : ℕ} {key : Text} {limit : ℤ} {link : RedisLink} {again : Bool}

theorem Good.members_eq (h : w.Good) {x : Holder} (hx : x ∈ w.held) :
    w.members x.key = w.leases x.key := if_pos (h.leased x hx).1

/-- There are as many leases as holders. -/
theorem Good.length_le (h : w.Good) (key : Text) :
    (Holder.ofKey key w.held).length ≤ (w.members key).length := by
  have hsub : (Holder.ofKey key w.held).map Holder.caller ⊆ (w.members key).map Prod.fst := by
    intro c hc
    obtain ⟨x, hofKey, rfl⟩ := List.mem_map.mp hc
    obtain ⟨hx, hkey⟩ := List.mem_filter.mp hofKey
    rw [decide_eq_true_eq] at hkey
    subst hkey
    obtain ⟨m, hm, hcaller⟩ := (h.leased x hx).2
    rw [h.members_eq hx]
    exact List.mem_map.mpr ⟨m, hm, hcaller⟩
  have hnodup : ((Holder.ofKey key w.held).map Holder.caller).Nodup :=
    h.nodup.sublist (List.filter_sublist.map _)
  have hlength := (hnodup.subperm hsub).length_le
  simpa using hlength

/-- A call that holds nothing is not a holder. -/
theorem Good.not_held (h : w.Good) (hadded : ∀ k, w.calls i ≠ .added k)
    (hholding : ∀ k, w.calls i ≠ .holding k true) : ∀ x ∈ w.held, x.caller ≠ i := by
  rintro x hx rfl
  rcases h.used x hx with hused | hused
  · exact hadded x.key hused
  · exact hholding x.key hused

/-- A call that holds nothing gets on to a phase that says as much. -/
theorem Good.enter (h : w.Good) {phase : LeasePhase} (hnot : ∀ x ∈ w.held, x.caller ≠ i)
    (hadded : ∀ k, phase ≠ .added k) (hholding : ∀ k leased, phase ≠ .holding k leased) :
    (w.enter i phase).Good := by
  have hself : (w.enter i phase).calls i = phase := Function.update_self ..
  have hother : ∀ j, j ≠ i → (w.enter i phase).calls j = w.calls j :=
    fun j hj => Function.update_of_ne hj _ _
  refine ⟨h.leased, h.lasting, ?_, ?_, ?_, h.nodup, h.ranked⟩
  · intro x hx
    rw [hother x.caller (hnot x hx)]
    exact h.used x hx
  · intro j k hj
    by_cases hji : j = i
    · subst hji
      rw [hself] at hj
      exact absurd hj (hadded k)
    · rw [hother j hji] at hj
      exact h.added j k hj
  · intro j k leased hj
    by_cases hji : j = i
    · subst hji
      rw [hself] at hj
      exact absurd hj (hholding k leased)
    · rw [hother j hji] at hj
      exact h.holding j k leased hj

theorem Good.retry (h : w.Good) (hnot : ∀ x ∈ w.held, x.caller ≠ i) :
    (w.retry i key limit again).Good := by
  rw [Leases.retry]
  cases again with
  | false => exact h.enter hnot (by simp) (by simp)
  | true => exact h.enter hnot (by simp) (by simp)

/-- A command that leaves the leases of the holders. -/
theorem Good.write (h : w.Good) {members : List (ℕ × ℚ)}
    (hsame : ∀ x ∈ w.held, x.key = key → ∀ m, m.1 = x.caller →
      (m ∈ members ↔ m ∈ w.members key)) : (w.write key members).Good := by
  refine ⟨?_, ?_, h.used, h.added, h.holding, h.nodup, h.ranked⟩
  · intro x hx
    obtain ⟨hlive, m, hm, hcaller⟩ := h.leased x hx
    by_cases hkey : x.key = key
    · subst hkey
      have hmem : m ∈ members := by
        rw [hsame x hx rfl m hcaller, h.members_eq hx]
        exact hm
      simp only [Leases.write, Function.update_self]
      rw [if_pos ⟨hlive, List.ne_nil_of_mem hmem⟩]
      exact ⟨hlive, m, hmem, hcaller⟩
    · simp only [Leases.write, Function.update_of_ne hkey]
      exact ⟨hlive, m, hm, hcaller⟩
  · intro x hx m hm hcaller
    by_cases hkey : x.key = key
    · subst hkey
      simp only [Leases.write, Function.update_self] at hm
      rw [hsame x hx rfl m hcaller, h.members_eq hx] at hm
      exact h.lasting x hx m hm hcaller
    · simp only [Leases.write, Function.update_of_ne hkey] at hm
      exact h.lasting x hx m hm hcaller

/-- A call is admitted that has its lease. -/
theorem Good.letIn (h : w.Good) (hnot : ∀ x ∈ w.held, x.caller ≠ i)
    (hlive : (w.clock : WithTop ℚ) < w.expires key) (hlease : ∃ m ∈ w.leases key, m.1 = i)
    (hlasting : ∀ m ∈ w.leases key, m.1 = i → w.clock < m.2)
    (hroom : ((Holder.ofKey key w.held).length : ℤ) + 1 ≤ limit) :
    (w.letIn i key limit (.added key)).Good := by
  have hself : (w.letIn i key limit (.added key)).calls i = .added key :=
    Function.update_self ..
  have hother : ∀ j, j ≠ i → (w.letIn i key limit (.added key)).calls j = w.calls j :=
    fun j hj => Function.update_of_ne hj _ _
  refine ⟨?_, ?_, ?_, ?_, ?_, ?_, ?_⟩
  · intro x hx
    rcases List.mem_cons.mp hx with rfl | hx
    · exact ⟨hlive, hlease⟩
    · exact h.leased x hx
  · intro x hx
    rcases List.mem_cons.mp hx with rfl | hx
    · exact hlasting
    · exact h.lasting x hx
  · intro x hx
    rcases List.mem_cons.mp hx with rfl | hx
    · exact .inl hself
    · rw [hother x.caller (hnot x hx)]
      exact h.used x hx
  · intro j k hj
    by_cases hji : j = i
    · subst hji
      rw [hself] at hj
      cases hj
      exact ⟨_, List.mem_cons_self, rfl, rfl⟩
    · rw [hother j hji] at hj
      obtain ⟨x, hx, hcaller⟩ := h.added j k hj
      exact ⟨x, List.mem_cons_of_mem _ hx, hcaller⟩
  · intro j k leased hj
    by_cases hji : j = i
    · subst hji
      rw [hself] at hj
      cases hj
    · rw [hother j hji] at hj
      obtain ⟨hleased, x, hx, hcaller⟩ := h.holding j k leased hj
      exact ⟨hleased, x, List.mem_cons_of_mem _ hx, hcaller⟩
  · change (i :: w.held.map Holder.caller).Nodup
    rw [List.nodup_cons]
    refine ⟨?_, h.nodup⟩
    intro hmem
    obtain ⟨x, hx, hcaller⟩ := List.mem_map.mp hmem
    exact hnot x hx hcaller
  · intro k
    change Holder.Ranked (Holder.ofKey k (⟨i, key, limit⟩ :: w.held))
    rw [Holder.ofKey_cons]
    split_ifs with hk
    · dsimp only at hk
      subst hk
      exact ⟨hroom, h.ranked key⟩
    · exact h.ranked k

theorem Good.acquire (h : w.Good) (hfresh : w.calls i = .fresh) {available : Bool}
    (hsteady : w.Steady (.acquire i key limit available)) :
    (w.acquire i key limit available).Good := by
  have hnot : ∀ x ∈ w.held, x.caller ≠ i := h.not_held (by simp [hfresh]) (by simp [hfresh])
  rw [Leases.acquire]
  split_ifs with hlimit havailable
  · exact h.enter hnot (by simp) (by simp)
  · exact h.enter hnot (by simp) (by simp)
  · exact absurd (hsteady hfresh (not_le.mp hlimit)) havailable

/-- Only leases that have ended are removed. -/
theorem Good.clear (h : w.Good) (hclearing : w.calls i = .clearing key limit) :
    (w.clear i key limit link).Good := by
  have hnot : ∀ x ∈ w.held, x.caller ≠ i :=
    h.not_held (by simp [hclearing]) (by simp [hclearing])
  rw [Leases.clear]
  split_ifs
  · refine (h.write ?_).enter hnot (by simp) (by simp)
    rintro x hx rfl m hcaller
    rw [List.mem_filter]
    refine ⟨fun hm => hm.1, fun hm => ⟨hm, ?_⟩⟩
    rw [h.members_eq hx] at hm
    have hlasting := h.lasting x hx m hm hcaller
    rw [decide_eq_true_eq]
    intro hended
    exact absurd hended.2 (not_le.mpr hlasting)
  · exact h.enter hnot (by simp) (by simp)

theorem Good.count (h : w.Good) {now : ℚ} (hcounting : w.calls i = .counting key limit now) :
    (w.count i key limit now link again).Good := by
  have hnot : ∀ x ∈ w.held, x.caller ≠ i :=
    h.not_held (by simp [hcounting]) (by simp [hcounting])
  simp only [Leases.count]
  split_ifs
  · exact h.enter hnot (by simp) (by simp)
  · exact h.retry hnot
  · exact h.enter hnot (by simp) (by simp)
  · exact h.retry hnot

/-- **A call is admitted** where there are fewer leases than its limit. -/
theorem Good.add (h : w.Good) {now : ℚ} (hadding : w.calls i = .adding key limit now)
    (hroom : ((w.members key).length : ℤ) < limit) (hlasts : w.clock < now + concTtl) :
    (w.add i key limit now link again).Good := by
  have hnot : ∀ x ∈ w.held, x.caller ≠ i := h.not_held (by simp [hadding]) (by simp [hadding])
  rw [Leases.add]
  by_cases hthere : ((w.members key).any fun m => m.1 = i) = true
  · -- its own lease is there already, and only that is written
    have hwrite : (w.write key ((w.members key).map fun m =>
        if m.1 = i then (i, now + concTtl) else m)).Good := by
      refine h.write ?_
      intro x hx _ m hcaller
      have hne : m.1 ≠ i := hcaller ▸ hnot x hx
      rw [List.mem_map]
      constructor
      · rintro ⟨m', hm', rfl⟩
        split_ifs at hne ⊢ with hi
        · exact absurd rfl hne
        · exact hm'
      · intro hm
        exact ⟨m, hm, if_neg hne⟩
    simp only [hthere, if_true, Bool.true_eq_false, and_false, if_false]
    split_ifs
    · exact hwrite.retry hnot
    · exact h.retry hnot
  · rw [Bool.not_eq_true] at hthere
    have hnone : ∀ m ∈ w.members key, m.1 ≠ i := by
      simpa [List.any_eq_false] using hthere
    have hwrite : (w.write key (w.members key ++ [(i, now + concTtl)])).Good := by
      refine h.write ?_
      intro x hx _ m hcaller
      rw [List.mem_append, List.mem_singleton]
      refine ⟨fun hm => hm.resolve_right ?_, .inl⟩
      rintro rfl
      exact hnot x hx hcaller.symm
    simp only [hthere, Bool.false_eq_true, if_false, and_true]
    by_cases hanswered : link = .answered
    · subst hanswered
      simp only [RedisLink.reaches, if_true]
      refine hwrite.letIn hnot ?_ ?_ ?_ ?_
      · simp only [Leases.write, Function.update_self]
        split_ifs with hlive
        · exact hlive.1
        · exact WithTop.coe_lt_top _
      · simp only [Leases.write, Function.update_self]
        exact ⟨(i, now + concTtl), List.mem_append_right _ (List.mem_singleton_self _), rfl⟩
      · simp only [Leases.write, Function.update_self]
        intro m hm hi
        rcases List.mem_append.mp hm with hm | hm
        · exact absurd hi (hnone m hm)
        · rw [List.mem_singleton.mp hm]
          exact hlasts
      · have hle := h.length_le key
        change ((Holder.ofKey key w.held).length : ℤ) + 1 ≤ limit
        omega
    · rw [if_neg hanswered]
      split_ifs
      · exact hwrite.retry hnot
      · exact h.retry hnot

/-- The key of a holder lives on. -/
theorem Good.expire (h : w.Good) (hadded : w.calls i = .added key) : (w.expire i key link).Good := by
  obtain ⟨x, hx, rfl, rfl⟩ := h.added i key hadded
  have hother : ∀ j, j ≠ x.caller → (w.expire x.caller x.key link).calls j = w.calls j :=
    fun j hj => Function.update_of_ne hj _ _
  have hself : (w.expire x.caller x.key link).calls x.caller = .holding x.key true :=
    Function.update_self ..
  refine ⟨?_, h.lasting, ?_, ?_, ?_, h.nodup, h.ranked⟩
  · intro y hy
    obtain ⟨hlive, hlease⟩ := h.leased y hy
    refine ⟨?_, hlease⟩
    simp only [Leases.expire]
    split_ifs
    · by_cases hkey : y.key = x.key
      · rw [hkey, Function.update_self]
        refine WithTop.coe_lt_coe.mpr ?_
        have hpos : (0 : ℚ) < concTtl + 60 := by norm_num [concTtl]
        exact lt_add_of_pos_right w.clock hpos
      · rw [Function.update_of_ne hkey]
        exact hlive
    · exact hlive
  · intro y hy
    by_cases hyx : y.caller = x.caller
    · obtain rfl : y = x := List.inj_on_of_nodup_map h.nodup hy hx hyx
      exact .inr hself
    · rw [hother y.caller hyx]
      exact h.used y hy
  · intro j k hj
    by_cases hji : j = x.caller
    · subst hji
      rw [hself] at hj
      cases hj
    · rw [hother j hji] at hj
      exact h.added j k hj
  · intro j k leased hj
    by_cases hji : j = x.caller
    · subst hji
      rw [hself] at hj
      cases hj
      exact ⟨rfl, x, hx, rfl, rfl⟩
    · rw [hother j hji] at hj
      exact h.holding j k leased hj

/-- A token is removed that no holder of the key has. -/
theorem Good.remove (h : w.Good) {token : ℕ}
    (hnobody : ∀ x ∈ w.held, x.key = key → x.caller ≠ token) : (w.remove key token link).Good := by
  rw [Leases.remove]
  split_ifs
  · refine h.write ?_
    intro x hx hkey m hcaller
    rw [List.mem_filter]
    refine ⟨fun hm => hm.1, fun hm => ⟨hm, ?_⟩⟩
    rw [decide_eq_true_eq, hcaller]
    exact hnobody x hx hkey
  · exact h

/-- A call holds no more. -/
theorem Good.leave (h : w.Good) :
    ({ w.enter i .done with held := Holder.without i w.held } : Leases).Good := by
  have hother : ∀ j, j ≠ i → (w.enter i .done).calls j = w.calls j :=
    fun j hj => Function.update_of_ne hj _ _
  have hself : (w.enter i .done).calls i = .done := Function.update_self ..
  refine ⟨?_, ?_, ?_, ?_, ?_, ?_, ?_⟩
  · intro x hx
    exact h.leased x (Holder.mem_without.mp hx).1
  · intro x hx
    exact h.lasting x (Holder.mem_without.mp hx).1
  · intro x hx
    obtain ⟨hx, hne⟩ := Holder.mem_without.mp hx
    change (w.enter i .done).calls x.caller = _ ∨ _
    rw [hother x.caller hne]
    exact h.used x hx
  · intro j k hj
    change (w.enter i .done).calls j = _ at hj
    by_cases hji : j = i
    · subst hji
      rw [hself] at hj
      cases hj
    · rw [hother j hji] at hj
      obtain ⟨x, hx, hcaller, hkey⟩ := h.added j k hj
      exact ⟨x, Holder.mem_without.mpr ⟨hx, hcaller ▸ hji⟩, hcaller, hkey⟩
  · intro j k leased hj
    change (w.enter i .done).calls j = _ at hj
    by_cases hji : j = i
    · subst hji
      rw [hself] at hj
      cases hj
    · rw [hother j hji] at hj
      obtain ⟨hleased, x, hx, hcaller, hkey⟩ := h.holding j k leased hj
      exact ⟨hleased, x, Holder.mem_without.mpr ⟨hx, hcaller ▸ hji⟩, hcaller, hkey⟩
  · exact h.nodup.sublist (List.filter_sublist.map _)
  · intro k
    exact (h.ranked k).sublist Holder.ofKey_without_sublist

/-- Whoever gives back its lease holds no more. -/
theorem Good.release (h : w.Good) : (w.release i key true link).Good := by
  have hleave : w.release i key true link =
      ({ w.enter i .done with held := Holder.without i w.held } : Leases).remove key i link := by
    simp only [Leases.release, Leases.remove, if_true]
    split_ifs
    · rfl
    · rfl
  rw [hleave]
  refine h.leave.remove ?_
  intro x hx _
  exact (Holder.mem_without.mp hx).2

/-- What every steady step keeps. -/
theorem Good.step (h : w.Good) {move : LeaseMove} (hsteady : w.Steady move) :
    (w.step move).Good := by
  cases move with
  | acquire i key limit available =>
    simp only [Leases.step]
    split
    · rename_i hfresh
      exact h.acquire hfresh hsteady
    · exact h
  | clear i link =>
    simp only [Leases.step]
    split
    · rename_i hclearing
      exact h.clear hclearing
    · exact h
  | count i link again =>
    simp only [Leases.step]
    split
    · rename_i hcounting
      exact h.count hcounting
    · exact h
  | add i link again =>
    simp only [Leases.step]
    split
    · rename_i key limit now hadding
      simp only [Steady, hadding] at hsteady
      exact h.add hadding hsteady.1 hsteady.2
    · exact h
  | expire i link =>
    simp only [Leases.step]
    split
    · rename_i hadded
      exact h.expire hadded
    · exact h
  | release i link =>
    simp only [Leases.step]
    split
    · rename_i key leased hholding
      obtain ⟨rfl, x, hx, rfl, rfl⟩ := h.holding i key leased hholding
      exact h.release
    · exact h
  | stray key token link => exact h.remove hsteady
  | tick later =>
    refine ⟨?_, ?_, h.used, h.added, h.holding, h.nodup, h.ranked⟩
    · intro x hx
      exact ⟨(hsteady x hx).1, (h.leased x hx).2⟩
    · intro x hx
      exact (hsteady x hx).2

/-- **The holders** of every key are within the limit of the last of them in every state of a run
of steady steps. -/
theorem within_of_along {moves : List LeaseMove} (h : Run.Along step Steady {} moves) (n : ℕ) :
    Holder.Within ((moves.take n).foldl step {}).held := by
  have hgood : Good ((moves.take n).foldl step {}) :=
    Run.invariant_along Good good_new (h.take n) fun _ _ hgood hsteady => hgood.step hsteady
  exact Holder.Ranked.within hgood.ranked

/-- **The holders in flight** of every key are within the limit of the last of them, in memory and
in Redis, in every state of a run of steady steps. -/
theorem limit_kept (inMemory : List SemaphoreMove) (inRedis : List LeaseMove) (n : ℕ) :
    (Run.Along Semaphores.step Semaphores.Steady {} inMemory →
      Holder.Within ((inMemory.take n).foldl Semaphores.step {}).held) ∧
    (Run.Along step Steady {} inRedis →
      Holder.Within ((inRedis.take n).foldl step {}).held) :=
  ⟨fun h => Semaphores.within_of_along h n, fun h => within_of_along h n⟩

/-- Two calls of a limit of two in memory, and one gives back before a third comes. -/
def turnsInMemory : List SemaphoreMove :=
  [.acquire 0 (of "llm") 2, .take 0, .acquire 1 (of "llm") 2, .take 1, .release 0, .give 0,
    .acquire 2 (of "llm") 2, .take 2]

/-- Two calls of a limit of two in Redis, and one gives back before a third comes. -/
def turnsInRedis : List LeaseMove :=
  [.acquire 0 (of "llm") 2 true, .clear 0 .answered, .count 0 .answered false,
    .add 0 .answered false, .expire 0 .answered, .tick 10,
    .acquire 1 (of "llm") 2 true, .clear 1 .answered, .count 1 .answered false,
    .add 1 .answered false, .expire 1 .answered, .release 0 .answered,
    .acquire 2 (of "llm") 2 true, .clear 2 .answered, .count 2 .answered false,
    .add 2 .answered false, .expire 2 .answered]

theorem limit_kept_turns :
    ((turnsInMemory.foldl Semaphores.step {}).held.length = 2 ∧
      Holder.Within (turnsInMemory.foldl Semaphores.step {}).held) ∧
    ((turnsInRedis.foldl step {}).held.length = 2 ∧
      Holder.Within (turnsInRedis.foldl step {}).held) := by
  refine ⟨⟨by decide +kernel, (limit_kept turnsInMemory turnsInRedis 8).1 ?_⟩,
    ⟨by decide +kernel, (limit_kept turnsInMemory turnsInRedis 17).2 ?_⟩⟩
  · exact ⟨Semaphores.steady_acquire (by decide +kernel), trivial,
      Semaphores.steady_acquire (by decide +kernel), trivial, trivial, trivial,
      Semaphores.steady_acquire (by decide +kernel), trivial, trivial⟩
  · decide +kernel

/-- Two calls that count before either adds its lease. -/
def countedTogether : List LeaseMove :=
  [.acquire 0 (of "llm") 1 true, .acquire 1 (of "llm") 1 true, .clear 0 .answered,
    .clear 1 .answered, .count 0 .answered false, .count 1 .answered false,
    .add 0 .answered false, .add 1 .answered false]

/-- The holders pass the limit of the last of them: in memory where the limit was changed, and in
Redis where two count at once. -/
theorem limit_passed :
    ¬Holder.Within (Semaphores.changedLimit.foldl Semaphores.step {}).held ∧
      ¬Holder.Within (countedTogether.foldl step {}).held := by
  constructor
  · intro h
    have hlast := h (of "llm") ⟨2, of "llm", 2⟩ (by decide +kernel)
    revert hlast
    decide +kernel
  · intro h
    have hlast := h (of "llm") ⟨1, of "llm", 1⟩ (by decide +kernel)
    revert hlast
    decide +kernel

end Leases

end WolfNas
