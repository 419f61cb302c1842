import WolfNas.Lib.Run
import WolfNas.Lib.Text
import Mathlib.Data.List.Nodup
import Mathlib.Tactic.Linarith

/-!
# Concurrent holders, in memory

A backend in memory has a semaphore for each key, and makes a new one where a caller comes with
another limit.  What is given back goes to the semaphore that is there then.

## Main definitions

* `Holder`, `Holder.Within` — callers in flight, and that they are within the limit of the last of
  them.
* `Semaphores`, `SemaphoreMove`, `Semaphores.step` — `acquire_concurrency` and
  `release_concurrency` of a backend in memory, one step at a time.
* `Semaphores.Steady` — a semaphore is replaced only where nobody uses it, and only holders give
  back.

## Main results

* `Semaphores.within_of_along` — in runs of such steps the holders are within their limit.
-/

namespace WolfNas

open Text

/-! ## Holders -/

/-- A call that was admitted, and did not give back yet. -/
structure Holder where
  caller : ℕ
  key : Text
  limit : ℤ
  deriving DecidableEq, Repr

namespace Holder

/-- The holders of a key, the last one first. -/
def ofKey (key : Text) (held : List Holder) : List Holder := held.filter fun h => h.key = key

/-- The holders of every key are within the limit of the last of them. -/
def Within (held : List Holder) : Prop :=
  ∀ key, ∀ last ∈ (ofKey key held).head?, ((ofKey key held).length : ℤ) ≤ last.limit

/-- Each holder is within its limit with those admitted before it. -/
def Ranked : List Holder → Prop
  | [] => True
  | h :: held => (held.length : ℤ) + 1 ≤ h.limit ∧ Ranked held

/-- The holders without a caller. -/
def without (i : ℕ) (held : List Holder) : List Holder := held.filter fun h => h.caller ≠ i

variable {held held' : List Holder} {key : Text} {i : ℕ} {h : Holder}

/-- Who is left is as early or earlier. -/
theorem Ranked.sublist (h : Ranked held) (hsub : held'.Sublist held) : Ranked held' := by
  induction hsub with
  | slnil => trivial
  | cons a _ ih => exact ih h.2
  | cons_cons a hsub ih =>
    refine ⟨?_, ih h.2⟩
    have hlength := hsub.length_le
    have hlimit := h.1
    omega

theorem Ranked.within (h : ∀ key, Ranked (ofKey key held)) : Within held := by
  intro key last hlast
  have hkey := h key
  cases hofKey : ofKey key held with
  | nil => simp [hofKey] at hlast
  | cons a rest =>
    rw [hofKey] at hkey hlast
    obtain rfl : a = last := by simpa using hlast
    simpa using hkey.1

theorem ofKey_cons : ofKey key (h :: held) =
    if h.key = key then h :: ofKey key held else ofKey key held := by
  simp [ofKey, List.filter_cons]

theorem ofKey_without_sublist : (ofKey key (without i held)).Sublist (ofKey key held) :=
  List.Sublist.filter _ List.filter_sublist

theorem mem_without {h : Holder} : h ∈ without i held ↔ h ∈ held ∧ h.caller ≠ i := by
  simp [without]

/-- Nobody of the caller is there. -/
theorem without_eq_self (h : ∀ h ∈ held, h.caller ≠ i) : without i held = held := by
  rw [without, List.filter_eq_self]
  simpa using h

/-- One holder less of its key. -/
theorem length_ofKey_without (hnodup : (held.map Holder.caller).Nodup) (hmem : h ∈ held) :
    ((ofKey key (without h.caller held)).length : ℤ) =
      (ofKey key held).length - if h.key = key then 1 else 0 := by
  induction held with
  | nil => cases hmem
  | cons a held ih =>
    rw [List.map_cons, List.nodup_cons] at hnodup
    by_cases ha : a = h
    · subst ha
      have hothers : ∀ x ∈ held, x.caller ≠ a.caller := by
        intro x hx heq
        exact hnodup.1 (heq ▸ List.mem_map_of_mem hx)
      have hrest : without a.caller (a :: held) = held := by
        have hleft : without a.caller (a :: held) = without a.caller held := by simp [without]
        rw [hleft, without_eq_self hothers]
      rw [hrest, ofKey_cons]
      split_ifs <;> simp
    · have hin : h ∈ held := (List.mem_cons.mp hmem).resolve_left (Ne.symm ha)
      have hcaller : a.caller ≠ h.caller := by
        intro heq
        exact hnodup.1 (heq ▸ List.mem_map_of_mem hin)
      have hleft : without h.caller (a :: held) = a :: without h.caller held := by
        simp [without, hcaller]
      rw [hleft, ofKey_cons, ofKey_cons]
      have hrest := ih hnodup.2 hin
      by_cases hkey : a.key = key
      · simp only [if_pos hkey, List.length_cons, Nat.cast_add, hrest]
        omega
      · simp only [if_neg hkey, hrest]

end Holder

/-! ## Semaphores -/

/-- `threading.BoundedSemaphore`. -/
structure BoundedSemaphore where
  value : ℤ
  initial : ℤ
  deriving DecidableEq, Repr

/-- Where a call of `acquire_concurrency`, and of `release_concurrency` with its token, is: with
the semaphore that it looked up. -/
inductive SemaphorePhase
  | fresh
  | waiting (key : Text) (limit : ℤ) (semaphore : ℕ)
  | holding (key : Text)
  | releasing (key : Text) (semaphore : Option ℕ)
  | done
  deriving DecidableEq

/-- A backend in memory, the calls so far, and who holds. -/
structure Semaphores where
  concurrency : Text → Option (ℕ × ℤ) := fun _ => none
  semaphores : ℕ → BoundedSemaphore := fun _ => ⟨0, 0⟩
  made : ℕ := 0
  calls : ℕ → SemaphorePhase := fun _ => .fresh
  held : List Holder := []

/-- One step of a call; `stray` is a release by someone who holds nothing. -/
inductive SemaphoreMove
  | acquire (i : ℕ) (key : Text) (limit : ℤ)
  | take (i : ℕ)
  | giveUp (i : ℕ)
  | release (i : ℕ)
  | stray (i : ℕ) (key : Text)
  | give (i : ℕ)

namespace Semaphores

/-- A call gets on. -/
def enter (w : Semaphores) (i : ℕ) (phase : SemaphorePhase) : Semaphores :=
  { w with calls := Function.update w.calls i phase }

/-- A new semaphore for a key. -/
def renew (w : Semaphores) (key : Text) (limit : ℤ) : Semaphores :=
  { w with
    concurrency := Function.update w.concurrency key (some (w.made, limit))
    semaphores := Function.update w.semaphores w.made ⟨limit, limit⟩
    made := w.made + 1 }

/-- The semaphore of a key for a limit: the one that is there, or a new one. -/
def lookUp (w : Semaphores) (key : Text) (limit : ℤ) : ℕ × Semaphores :=
  match w.concurrency key with
  | some (semaphore, l) => if l = limit then (semaphore, w) else (w.made, w.renew key limit)
  | none => (w.made, w.renew key limit)

/-- `acquire_concurrency`, until it waits: a call without a limit holds nothing. -/
def acquire (w : Semaphores) (i : ℕ) (key : Text) (limit : ℤ) : Semaphores :=
  if limit ≤ 0 then w.enter i .done
  else (w.lookUp key limit).2.enter i (.waiting key limit (w.lookUp key limit).1)

/-- The call that waits is admitted, where the semaphore has something left. -/
def take (w : Semaphores) (i : ℕ) (key : Text) (limit : ℤ) (semaphore : ℕ) : Semaphores :=
  if 0 < (w.semaphores semaphore).value then
    { w.enter i (.holding key) with
      semaphores := Function.update w.semaphores semaphore
        { w.semaphores semaphore with value := (w.semaphores semaphore).value - 1 }
      held := ⟨i, key, limit⟩ :: w.held }
  else w

/-- `release_concurrency`, until it gives back: the semaphore that is there now. -/
def release (w : Semaphores) (i : ℕ) (key : Text) : Semaphores :=
  w.enter i (.releasing key ((w.concurrency key).map Prod.fst))

/-- It gives back; a semaphore that has all it had at first stays as it is. -/
def give (w : Semaphores) (i : ℕ) (semaphore : Option ℕ) : Semaphores :=
  { w.enter i .done with
    semaphores := match semaphore with
      | none => w.semaphores
      | some s =>
        if (w.semaphores s).value < (w.semaphores s).initial then
          Function.update w.semaphores s { w.semaphores s with value := (w.semaphores s).value + 1 }
        else w.semaphores
    held := Holder.without i w.held }

/-- One step. -/
def step (w : Semaphores) : SemaphoreMove → Semaphores
  | .acquire i key limit => match w.calls i with
    | .fresh => w.acquire i key limit
    | _ => w
  | .take i => match w.calls i with
    | .waiting key limit semaphore => w.take i key limit semaphore
    | _ => w
  | .giveUp i => match w.calls i with
    | .waiting _ _ _ => w.enter i .done
    | _ => w
  | .release i => match w.calls i with
    | .holding key => w.release i key
    | _ => w
  | .stray i key => match w.calls i with
    | .fresh => w.release i key
    | _ => w
  | .give i => match w.calls i with
    | .releasing _ semaphore => w.give i semaphore
    | _ => w

/-- The key that a call uses the semaphore of. -/
def usedBy (w : Semaphores) (i : ℕ) : Option Text :=
  match w.calls i with
  | .waiting key _ _ | .holding key | .releasing key _ => some key
  | .fresh | .done => none

/-- A semaphore is replaced only where no call uses it, and nobody gives back what it does not
hold. -/
def Steady (w : Semaphores) : SemaphoreMove → Prop
  | .acquire i key limit => w.calls i = .fresh → 0 < limit →
      ∀ semaphore l, w.concurrency key = some (semaphore, l) → l ≠ limit →
        ∀ j, w.usedBy j ≠ some key
  | .stray i _ => w.calls i ≠ .fresh
  | _ => True

/-- What holds after every step. -/
structure Good (w : Semaphores) : Prop where
  made : ∀ key s l, w.concurrency key = some (s, l) → s < w.made
  apart : ∀ key key' s l l', w.concurrency key = some (s, l) → w.concurrency key' = some (s, l') →
    key = key'
  counts : ∀ key s l, w.concurrency key = some (s, l) →
    w.semaphores s = ⟨l - (Holder.ofKey key w.held).length, l⟩
  waiting : ∀ i key l s, w.calls i = .waiting key l s → w.concurrency key = some (s, l)
  holding : ∀ i key, w.calls i = .holding key → ∃ h ∈ w.held, h.caller = i ∧ h.key = key
  releasing : ∀ i key s, w.calls i = .releasing key s →
    (w.concurrency key).map Prod.fst = s ∧ ∃ h ∈ w.held, h.caller = i ∧ h.key = key
  keyed : ∀ h ∈ w.held, w.concurrency h.key ≠ none
  used : ∀ h ∈ w.held, w.calls h.caller = .holding h.key ∨ ∃ s, w.calls h.caller = .releasing h.key s
  nodup : (w.held.map Holder.caller).Nodup
  ranked : ∀ key, Holder.Ranked (Holder.ofKey key w.held)

theorem good_new : Good {} where
  made _ _ _ h := by cases h
  apart _ _ _ _ _ h := by cases h
  counts _ _ _ h := by cases h
  waiting _ _ _ _ h := by cases h
  holding _ _ h := by cases h
  releasing _ _ _ h := by cases h
  keyed _ h := by cases h
  used _ h := by cases h
  nodup := List.nodup_nil
  ranked _ := trivial

variable {w : Semaphores} {i : ℕ} {key : Text} {limit : ℤ} {semaphore : ℕ}

/-- A key that no call uses has no holder. -/
theorem Good.ofKey_eq_nil (h : w.Good) (hunused : ∀ j, w.usedBy j ≠ some key) :
    Holder.ofKey key w.held = [] := by
  rw [Holder.ofKey, List.filter_eq_nil_iff]
  intro x hx hkey
  refine hunused x.caller ?_
  rw [decide_eq_true_eq] at hkey
  rcases h.used x hx with hphase | ⟨s, hphase⟩
  · simp [usedBy, hphase, hkey]
  · simp [usedBy, hphase, hkey]

/-- A key without a semaphore is not used. -/
theorem Good.unused_of_none (h : w.Good) (hnone : w.concurrency key = none) (j : ℕ) :
    w.usedBy j ≠ some key := by
  intro hused
  unfold usedBy at hused
  cases hphase : w.calls j with
  | fresh => simp [hphase] at hused
  | done => simp [hphase] at hused
  | waiting k l s =>
    obtain rfl : k = key := by simpa [hphase] using hused
    simp [h.waiting j k l s hphase] at hnone
  | holding k =>
    obtain rfl : k = key := by simpa [hphase] using hused
    obtain ⟨x, hx, -, hkey⟩ := h.holding j k hphase
    exact h.keyed x hx (hkey ▸ hnone)
  | releasing k s =>
    obtain rfl : k = key := by simpa [hphase] using hused
    obtain ⟨-, x, hx, -, hkey⟩ := h.releasing j k s hphase
    exact h.keyed x hx (hkey ▸ hnone)

/-- A new semaphore for a key that is not used. -/
theorem Good.renew (h : w.Good) (hunused : ∀ j, w.usedBy j ≠ some key) (limit : ℤ) :
    (w.renew key limit).Good := by
  have hkeep : ∀ k, k ≠ key → (w.renew key limit).concurrency k = w.concurrency k :=
    fun k hk => Function.update_of_ne hk _ _
  have hnew : (w.renew key limit).concurrency key = some (w.made, limit) :=
    Function.update_self ..
  have hother : ∀ k j, w.usedBy j = some k → k ≠ key := by
    rintro k j hused rfl
    exact hunused j hused
  refine ⟨?_, ?_, ?_, ?_, h.holding, ?_, ?_, h.used, h.nodup, h.ranked⟩
  · intro k s l hk
    by_cases hkey : k = key
    · subst hkey
      rw [hnew] at hk
      cases hk
      exact Nat.lt_succ_self _
    · rw [hkeep k hkey] at hk
      exact (h.made k s l hk).trans (Nat.lt_succ_self _)
  · intro k k' s l l' hk hk'
    by_cases hkey : k = key
    · by_cases hkey' : k' = key
      · rw [hkey, hkey']
      · subst hkey
        rw [hnew] at hk
        rw [hkeep k' hkey'] at hk'
        cases hk
        exact absurd (h.made k' _ l' hk') (lt_irrefl _)
    · rw [hkeep k hkey] at hk
      by_cases hkey' : k' = key
      · subst hkey'
        rw [hnew] at hk'
        cases hk'
        exact absurd (h.made k _ l hk) (lt_irrefl _)
      · rw [hkeep k' hkey'] at hk'
        exact h.apart k k' s l l' hk hk'
  · intro k s l hk
    by_cases hkey : k = key
    · subst hkey
      rw [hnew] at hk
      cases hk
      change Function.update w.semaphores w.made ⟨limit, limit⟩ w.made = _
      rw [Function.update_self]
      change _ = (⟨limit - ((Holder.ofKey k w.held).length : ℤ), limit⟩ : BoundedSemaphore)
      rw [h.ofKey_eq_nil hunused]
      simp
    · rw [hkeep k hkey] at hk
      have hne : s ≠ w.made := (h.made k s l hk).ne
      change Function.update w.semaphores w.made ⟨limit, limit⟩ s = _
      rw [Function.update_of_ne hne]
      exact h.counts k s l hk
  · intro j k l s hphase
    have hused : w.usedBy j = some k := by
      have hphase' : w.calls j = .waiting k l s := hphase
      simp [usedBy, hphase']
    rw [hkeep k (hother k j hused)]
    exact h.waiting j k l s hphase
  · intro j k s hphase
    have hused : w.usedBy j = some k := by
      have hphase' : w.calls j = .releasing k s := hphase
      simp [usedBy, hphase']
    rw [hkeep k (hother k j hused)]
    exact h.releasing j k s hphase
  · intro x hx
    by_cases hkey : x.key = key
    · rw [hkey, hnew]
      exact Option.some_ne_none _
    · rw [hkeep x.key hkey]
      exact h.keyed x hx

/-- A call that holds nothing gets on to a phase that says as much. -/
theorem Good.enter (h : w.Good) {phase : SemaphorePhase} (hnot : ∀ x ∈ w.held, x.caller ≠ i)
    (hphase : ∀ k l s, phase = .waiting k l s → w.concurrency k = some (s, l))
    (hholding : ∀ k, phase ≠ .holding k) (hreleasing : ∀ k s, phase ≠ .releasing k s) :
    (w.enter i phase).Good := by
  have hself : (w.enter i phase).calls i = phase := Function.update_self ..
  have hother : ∀ j, j ≠ i → (w.enter i phase).calls j = w.calls j :=
    fun j hj => Function.update_of_ne hj _ _
  refine ⟨h.made, h.apart, h.counts, ?_, ?_, ?_, h.keyed, ?_, h.nodup, h.ranked⟩
  · intro j k l s hj
    by_cases hji : j = i
    · subst hji
      rw [hself] at hj
      exact hphase k l s hj
    · rw [hother j hji] at hj
      exact h.waiting j k l s hj
  · intro j k hj
    by_cases hji : j = i
    · subst hji
      rw [hself] at hj
      exact absurd hj (hholding k)
    · rw [hother j hji] at hj
      exact h.holding j k hj
  · intro j k s hj
    by_cases hji : j = i
    · subst hji
      rw [hself] at hj
      exact absurd hj (hreleasing k s)
    · rw [hother j hji] at hj
      exact h.releasing j k s hj
  · intro x hx
    rw [hother x.caller (hnot x hx)]
    exact h.used x hx

/-- A call that is fresh or waits holds nothing. -/
theorem Good.not_held (h : w.Good) (hphase : ∀ k, w.calls i ≠ .holding k)
    (hphase' : ∀ k s, w.calls i ≠ .releasing k s) : ∀ x ∈ w.held, x.caller ≠ i := by
  rintro x hx rfl
  rcases h.used x hx with hused | ⟨s, hused⟩
  · exact hphase x.key hused
  · exact hphase' x.key s hused

/-- A call that asks for the limit that is there. -/
theorem steady_acquire (h : ∀ e ∈ w.concurrency key, e.2 = limit) :
    w.Steady (.acquire i key limit) := by
  intro _ _ s l hentry hne
  exact absurd (h (s, l) hentry) hne

theorem Good.acquire (h : w.Good) (hfresh : w.calls i = .fresh)
    (hsteady : w.Steady (.acquire i key limit)) : (w.acquire i key limit).Good := by
  have hnot : ∀ x ∈ w.held, x.caller ≠ i :=
    h.not_held (by simp [hfresh]) (by simp [hfresh])
  rw [Semaphores.acquire]
  split_ifs with hlimit
  · exact h.enter hnot (by simp) (by simp) (by simp)
  · rw [lookUp]
    cases hentry : w.concurrency key with
    | none =>
      refine (h.renew (h.unused_of_none hentry) limit).enter hnot ?_ (by simp) (by simp)
      intro k l s hphase
      cases hphase
      exact Function.update_self ..
    | some entry =>
      obtain ⟨s, l⟩ := entry
      by_cases hl : l = limit
      · subst hl
        simp only [if_true]
        refine h.enter hnot ?_ (by simp) (by simp)
        intro k l' s' hphase
        cases hphase
        exact hentry
      · simp only [if_neg hl]
        have hunused := hsteady hfresh (not_le.mp hlimit) s l hentry hl
        refine (h.renew hunused limit).enter hnot ?_ (by simp) (by simp)
        intro k l' s' hphase
        cases hphase
        exact Function.update_self ..

/-- **A call is admitted** by the semaphore of its key, which has given out as much as there are
holders. -/
theorem Good.take (h : w.Good) (hwaiting : w.calls i = .waiting key limit semaphore) :
    (w.take i key limit semaphore).Good := by
  have hentry := h.waiting i key limit semaphore hwaiting
  have hnot : ∀ x ∈ w.held, x.caller ≠ i :=
    h.not_held (by simp [hwaiting]) (by simp [hwaiting])
  have hvalue := h.counts key semaphore limit hentry
  rw [Semaphores.take]
  split_ifs with hpos
  · rw [hvalue] at hpos
    dsimp only at hpos
    refine ⟨h.made, h.apart, ?_, ?_, ?_, ?_, ?_, ?_, ?_, ?_⟩
    · intro k s l hk
      by_cases hkey : k = key
      · subst hkey
        obtain ⟨rfl, rfl⟩ : semaphore = s ∧ limit = l := by
          have heq := hentry.symm.trans hk
          simpa using heq
        simp only [Function.update_self, Holder.ofKey_cons, if_true, List.length_cons, hvalue]
        congr 1
        omega
      · have hne : s ≠ semaphore := by
          rintro rfl
          exact hkey (h.apart k key _ _ _ hk hentry)
        simp only [Function.update_of_ne hne, Holder.ofKey_cons, if_neg (Ne.symm hkey)]
        exact h.counts k s l hk
    · intro j k l s hj
      by_cases hji : j = i
      · subst hji
        simp [Semaphores.enter] at hj
      · simp only [Semaphores.enter, Function.update_of_ne hji] at hj
        exact h.waiting j k l s hj
    · intro j k hj
      by_cases hji : j = i
      · subst hji
        simp only [Semaphores.enter, Function.update_self, SemaphorePhase.holding.injEq] at hj
        exact ⟨_, List.mem_cons_self, rfl, hj⟩
      · simp only [Semaphores.enter, Function.update_of_ne hji] at hj
        obtain ⟨x, hx, hcaller⟩ := h.holding j k hj
        exact ⟨x, List.mem_cons_of_mem _ hx, hcaller⟩
    · intro j k s hj
      by_cases hji : j = i
      · subst hji
        simp [Semaphores.enter] at hj
      · simp only [Semaphores.enter, Function.update_of_ne hji] at hj
        obtain ⟨hs, x, hx, hcaller⟩ := h.releasing j k s hj
        exact ⟨hs, x, List.mem_cons_of_mem _ hx, hcaller⟩
    · intro x hx
      rcases List.mem_cons.mp hx with rfl | hx
      · simp [Semaphores.enter, hentry]
      · exact h.keyed x hx
    · intro x hx
      rcases List.mem_cons.mp hx with rfl | hx
      · exact .inl (by simp [Semaphores.enter])
      · simp only [Semaphores.enter, Function.update_of_ne (hnot x hx)]
        exact h.used x hx
    · rw [List.map_cons, List.nodup_cons]
      refine ⟨?_, h.nodup⟩
      intro hmem
      obtain ⟨x, hx, hcaller⟩ := List.mem_map.mp hmem
      exact hnot x hx hcaller
    · intro k
      rw [Holder.ofKey_cons]
      split_ifs with hk
      · dsimp only at hk
        subst hk
        exact ⟨by dsimp only; omega, h.ranked key⟩
      · exact h.ranked k
  · exact h

/-- A holder looks up the semaphore that it took from. -/
theorem Good.release (h : w.Good) (hholding : w.calls i = .holding key) :
    (w.release i key).Good := by
  obtain ⟨x, hx, rfl, rfl⟩ := h.holding i key hholding
  have hother : ∀ j, j ≠ x.caller → (w.release x.caller x.key).calls j = w.calls j :=
    fun j hj => Function.update_of_ne hj _ _
  have hself : (w.release x.caller x.key).calls x.caller =
      .releasing x.key ((w.concurrency x.key).map Prod.fst) := Function.update_self ..
  refine ⟨h.made, h.apart, h.counts, ?_, ?_, ?_, h.keyed, ?_, h.nodup, h.ranked⟩
  · intro j k l s hj
    by_cases hji : j = x.caller
    · subst hji
      rw [hself] at hj
      cases hj
    · rw [hother j hji] at hj
      exact h.waiting j k l s hj
  · intro j k hj
    by_cases hji : j = x.caller
    · subst hji
      rw [hself] at hj
      cases hj
    · rw [hother j hji] at hj
      exact h.holding j k hj
  · intro j k s hj
    by_cases hji : j = x.caller
    · subst hji
      rw [hself] at hj
      cases hj
      exact ⟨rfl, x, hx, rfl, rfl⟩
    · rw [hother j hji] at hj
      exact h.releasing j k s hj
  · intro y hy
    by_cases hyx : y.caller = x.caller
    · have heq : y = x := List.inj_on_of_nodup_map h.nodup hy hx hyx
      subst heq
      exact .inr ⟨_, hself⟩
    · rw [hother y.caller hyx]
      exact h.used y hy

/-- A holder gives back to the semaphore that it took from. -/
theorem Good.give (h : w.Good) {s : Option ℕ} (hreleasing : w.calls i = .releasing key s) :
    (w.give i s).Good := by
  obtain ⟨hs, x, hx, rfl, rfl⟩ := h.releasing i key s hreleasing
  obtain ⟨⟨semaphore, l⟩, hentry⟩ := Option.ne_none_iff_exists'.mp (h.keyed x hx)
  obtain rfl : s = some semaphore := by
    rw [← hs, hentry]
    rfl
  have hvalue := h.counts x.key semaphore l hentry
  have hlength : ∀ k, ((Holder.ofKey k (Holder.without x.caller w.held)).length : ℤ) =
      (Holder.ofKey k w.held).length - if x.key = k then 1 else 0 :=
    fun k => Holder.length_ofKey_without h.nodup hx
  have hroom : (w.semaphores semaphore).value < (w.semaphores semaphore).initial := by
    have hmem : x ∈ Holder.ofKey x.key w.held := List.mem_filter.mpr ⟨hx, by simp⟩
    have hone : 0 < (Holder.ofKey x.key w.held).length := List.length_pos_of_mem hmem
    rw [hvalue]
    dsimp only
    omega
  have hother : ∀ j, j ≠ x.caller → (w.give x.caller (some semaphore)).calls j = w.calls j :=
    fun j hj => Function.update_of_ne hj _ _
  have hself : (w.give x.caller (some semaphore)).calls x.caller = .done :=
    Function.update_self ..
  refine ⟨h.made, h.apart, ?_, ?_, ?_, ?_, ?_, ?_, ?_, ?_⟩
  · intro k s l' hk
    simp only [Semaphores.give, if_pos hroom, hlength]
    by_cases hkey : x.key = k
    · subst hkey
      obtain ⟨rfl, rfl⟩ : semaphore = s ∧ l = l' := by
        have heq := hentry.symm.trans hk
        simpa using heq
      simp only [Function.update_self, if_true, hvalue]
      congr 1
      omega
    · have hne : s ≠ semaphore := by
        rintro rfl
        exact hkey (h.apart k x.key _ _ _ hk hentry).symm
      simp only [Function.update_of_ne hne, if_neg hkey, sub_zero]
      exact h.counts k s l' hk
  · intro j k l' s hj
    by_cases hji : j = x.caller
    · subst hji
      rw [hself] at hj
      cases hj
    · rw [hother j hji] at hj
      exact h.waiting j k l' s hj
  · intro j k hj
    by_cases hji : j = x.caller
    · subst hji
      rw [hself] at hj
      cases hj
    · rw [hother j hji] at hj
      obtain ⟨y, hy, hcaller, hkey⟩ := h.holding j k hj
      exact ⟨y, Holder.mem_without.mpr ⟨hy, hcaller ▸ hji⟩, hcaller, hkey⟩
  · intro j k s hj
    by_cases hji : j = x.caller
    · subst hji
      rw [hself] at hj
      cases hj
    · rw [hother j hji] at hj
      obtain ⟨hs, y, hy, hcaller, hkey⟩ := h.releasing j k s hj
      exact ⟨hs, y, Holder.mem_without.mpr ⟨hy, hcaller ▸ hji⟩, hcaller, hkey⟩
  · intro y hy
    exact h.keyed y (Holder.mem_without.mp hy).1
  · intro y hy
    obtain ⟨hy, hyx⟩ := Holder.mem_without.mp hy
    rw [hother y.caller hyx]
    exact h.used y hy
  · exact h.nodup.sublist (List.filter_sublist.map _)
  · intro k
    exact (h.ranked k).sublist Holder.ofKey_without_sublist

/-- What every steady step keeps. -/
theorem Good.step (h : w.Good) {move : SemaphoreMove} (hsteady : w.Steady move) :
    (w.step move).Good := by
  cases move with
  | acquire i key limit =>
    simp only [Semaphores.step]
    split
    · rename_i hfresh
      exact h.acquire hfresh hsteady
    · exact h
  | take i =>
    simp only [Semaphores.step]
    split
    · rename_i hwaiting
      exact h.take hwaiting
    · exact h
  | giveUp i =>
    simp only [Semaphores.step]
    split
    · rename_i hwaiting
      refine h.enter (h.not_held ?_ ?_) (by simp) (by simp) (by simp)
      · simp [hwaiting]
      · simp [hwaiting]
    · exact h
  | release i =>
    simp only [Semaphores.step]
    split
    · rename_i hholding
      exact h.release hholding
    · exact h
  | stray i key =>
    simp only [Semaphores.step]
    split
    · rename_i hfresh
      exact absurd hfresh hsteady
    · exact h
  | give i =>
    simp only [Semaphores.step]
    split
    · rename_i hreleasing
      exact h.give hreleasing
    · exact h

/-- **The holders** of every key are within the limit of the last of them in every state of a run
of steady steps. -/
theorem within_of_along {moves : List SemaphoreMove} (h : Run.Along step Steady {} moves) (n : ℕ) :
    Holder.Within ((moves.take n).foldl step {}).held := by
  have hgood : Good ((moves.take n).foldl step {}) :=
    Run.invariant_along Good good_new (h.take n) fun _ _ hgood hsteady => hgood.step hsteady
  exact Holder.Ranked.within hgood.ranked

/-- A call is admitted with a limit of one, and two more after the limit was changed to two. -/
def changedLimit : List SemaphoreMove :=
  [.acquire 0 (of "llm") 1, .take 0, .acquire 1 (of "llm") 2, .take 1, .acquire 2 (of "llm") 2,
    .take 2]

end Semaphores

end WolfNas
