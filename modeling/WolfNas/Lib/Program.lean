import Mathlib.Data.List.Basic
import Mathlib.Logic.Basic

/-!
# Computations that may raise

A function that may raise returns an `Except`, and a sequence of calls ends with the first one
that raises.  A program also changes a state: it runs from a state to a result or an exception,
and to a state in either case, for what was done before an exception stays done.

## Main definitions

* `Program σ ε α` — programs over states `σ` with exceptions `ε` and results `α`.
* `Program.raise`, `Program.attempt`, `Program.handle` — raising, and catching.
* `Program.Triple` — what holds before, and what holds after a result or an exception.
* `Program.Keeps` — an invariant holds afterwards, however the program ends.

## Main results

* `Raise.bind_ok_iff` — the result of two calls in sequence.
* `Raise.exists_of_mem_mapM` — the results of one call for each member of a list.
* `Raise.exists_of_mem_mapM_some` — the same for a call that gives up silently.
* `Program.triple_bind`, `Program.triple_attempt`, `Program.triple_handle` — the rules.
* `Program.triple_foldlM` — the rule of a loop, by what is left to do.
* `Program.keeps_foldlM` — an invariant of a loop's body is one of the loop.
-/

namespace Raise

variable {ε α β : Type}

theorem bind_ok_iff {x : Except ε α} {f : α → Except ε β} {b : β} :
    x >>= f = .ok b ↔ ∃ a, x = .ok a ∧ f a = .ok b := by
  cases x with
  | error e => simp [bind, Except.bind]
  | ok a => simp [bind, Except.bind]

@[simp] theorem pure_ok_iff {a b : α} : (pure a : Except ε α) = .ok b ↔ a = b := by
  simp [pure, Except.pure]

/-- Every result in the list is that of a call for some member. -/
theorem exists_of_mem_mapM {f : α → Except ε β} {xs : List α} {ys : List β}
    (h : xs.mapM f = .ok ys) {y : β} (hy : y ∈ ys) : ∃ x ∈ xs, f x = .ok y := by
  induction xs generalizing ys with
  | nil =>
    obtain rfl : [] = ys := by simpa using h
    simp at hy
  | cons x xs ih =>
    simp only [List.mapM_cons, bind_ok_iff, pure_ok_iff] at h
    obtain ⟨z, hz, zs, hzs, rfl⟩ := h
    rcases List.mem_cons.mp hy with rfl | hy
    · exact ⟨x, by simp, hz⟩
    · obtain ⟨x', hx', hf⟩ := ih hzs hy
      exact ⟨x', by simp [hx'], hf⟩

theorem exists_of_mem_mapM_some {f : α → Option β} {xs : List α} {ys : List β}
    (h : xs.mapM f = some ys) {y : β} (hy : y ∈ ys) : ∃ x ∈ xs, f x = some y := by
  induction xs generalizing ys with
  | nil =>
    obtain rfl : [] = ys := by simpa using h
    simp at hy
  | cons x xs ih =>
    simp only [List.mapM_cons, Option.bind_eq_bind, Option.bind_eq_some_iff] at h
    obtain ⟨z, hz, zs, hzs, hys⟩ := h
    obtain rfl : z :: zs = ys := by simpa using hys
    rcases List.mem_cons.mp hy with rfl | hy
    · exact ⟨x, by simp, hz⟩
    · obtain ⟨x', hx', hf⟩ := ih hzs hy
      exact ⟨x', by simp [hx'], hf⟩

end Raise

/-- A program over states, that may raise. -/
structure Program (σ ε α : Type) where
  run : σ → Except ε α × σ

namespace Program

variable {σ ε α β : Type}

/-- A result, without a change. -/
def pure (a : α) : Program σ ε α := ⟨fun s => (.ok a, s)⟩

/-- An exception, without a change. -/
def raise (e : ε) : Program σ ε α := ⟨fun s => (.error e, s)⟩

/-- One program, and then another that depends on its result. -/
def bind (x : Program σ ε α) (f : α → Program σ ε β) : Program σ ε β :=
  ⟨fun s => match x.run s with
    | (.ok a, s) => (f a).run s
    | (.error e, s) => (.error e, s)⟩

instance : Monad (Program σ ε) where
  pure := pure
  bind := bind

/-- The program, with its exception as a result. -/
def attempt (x : Program σ ε α) : Program σ ε (Except ε α) :=
  ⟨fun s => (.ok (x.run s).1, (x.run s).2)⟩

/-- `try: x except e: f(e)`. -/
def handle (x : Program σ ε α) (f : ε → Program σ ε α) : Program σ ε α :=
  x.attempt >>= fun
    | .ok a => pure a
    | .error e => f e

/-! ## Triples -/

/-- What holds after a result or an exception. -/
def Post (Q : α → σ → Prop) (E : ε → σ → Prop) : Except ε α × σ → Prop
  | (.ok a, s) => Q a s
  | (.error e, s) => E e s

/-- From a state with `P` the program ends with a result and `Q`, or with an exception and
`E`. -/
def Triple (P : σ → Prop) (x : Program σ ε α) (Q : α → σ → Prop) (E : ε → σ → Prop) : Prop :=
  ∀ s, P s → Post Q E (x.run s)

/-- The invariant holds afterwards, however the program ends. -/
def Keeps (I : σ → Prop) (x : Program σ ε α) : Prop := Triple I x (fun _ => I) fun _ => I

variable {I P : σ → Prop} {Q : α → σ → Prop} {R : β → σ → Prop} {E E' : ε → σ → Prop}

theorem triple_pure (a : α) (h : ∀ s, P s → Q a s) :
    Triple P (Pure.pure a : Program σ ε α) Q E := h

theorem triple_raise (e : ε) (h : ∀ s, P s → E e s) :
    Triple P (raise e : Program σ ε α) Q E := h

theorem triple_bind {x : Program σ ε α} {f : α → Program σ ε β} (hx : Triple P x Q E)
    (hf : ∀ a, Triple (Q a) (f a) R E) : Triple P (x >>= f) R E := by
  intro s hs
  have hpost := hx s hs
  have hrun : (x >>= f).run s = match x.run s with
      | (.ok a, s) => (f a).run s
      | (.error e, s) => (.error e, s) := rfl
  rw [hrun]
  cases h : x.run s with
  | mk r s' =>
    rw [h] at hpost
    cases r with
    | ok a => exact hf a s' hpost
    | error e => exact hpost

/-- A program goes on after a result. -/
theorem run_bind_of_ok {x : Program σ ε α} {f : α → Program σ ε β} {s s' : σ} {a : α}
    (h : x.run s = (.ok a, s')) : (x >>= f).run s = (f a).run s' := by
  have hrun : (x >>= f).run s = match x.run s with
      | (.ok a, s) => (f a).run s
      | (.error e, s) => (.error e, s) := rfl
  rw [hrun, h]

/-- From one state, a program and then another that depends on how it ran. -/
theorem post_bind {x : Program σ ε α} {f : α → Program σ ε β} {s : σ} (hx : Post Q E (x.run s))
    (hf : ∀ a s', x.run s = (.ok a, s') → Q a s' → Post R E ((f a).run s')) :
    Post R E ((x >>= f).run s) := by
  have hrun : (x >>= f).run s = match x.run s with
      | (.ok a, s) => (f a).run s
      | (.error e, s) => (.error e, s) := rfl
  rw [hrun]
  cases h : x.run s with
  | mk r s' =>
    rw [h] at hx
    cases r with
    | ok a => exact hf a s' h hx
    | error e => exact hx

/-- Another claim about the same end. -/
theorem Post.weaken {Q' : α → σ → Prop} {r : Except ε α × σ} (h : Post Q E r)
    (hQ : ∀ a s, r = (.ok a, s) → Q a s → Q' a s)
    (hE : ∀ e s, r = (.error e, s) → E e s → E' e s) : Post Q' E' r := by
  obtain ⟨r, s⟩ := r
  cases r with
  | ok a => exact hQ a s rfl h
  | error e => exact hE e s rfl h

/-- A weaker claim about the same program. -/
theorem Triple.weaken {P' : σ → Prop} {Q' : α → σ → Prop} {x : Program σ ε α}
    (h : Triple P x Q E) (hP : ∀ s, P' s → P s) (hQ : ∀ a s, Q a s → Q' a s)
    (hE : ∀ e s, E e s → E' e s) : Triple P' x Q' E' := by
  intro s hs
  have hpost := h s (hP s hs)
  cases hrun : x.run s with
  | mk r s' =>
    rw [hrun] at hpost
    cases r with
    | ok a => exact hQ a s' hpost
    | error e => exact hE e s' hpost

/-- What holds after a result, whatever holds after an exception. -/
theorem Triple.result {x : Program σ ε α} (h : Triple P x Q E) : Triple P x Q fun _ _ => True :=
  h.weaken (fun _ hs => hs) (fun _ _ hs => hs) fun _ _ _ => trivial

theorem triple_true (x : Program σ ε α) : Triple P x (fun _ _ => True) fun _ _ => True := by
  intro s _
  cases x.run s with
  | mk r s' => cases r <;> trivial

/-- A caught exception is a result. -/
theorem triple_attempt {x : Program σ ε α} (h : Triple P x Q E) :
    Triple P x.attempt (fun r s => Post Q E (r, s)) E' := h

theorem triple_handle {x : Program σ ε α} {f : ε → Program σ ε α} (hx : Triple P x Q E)
    (hf : ∀ e, Triple (E e) (f e) Q E') : Triple P (x.handle f) Q E' := by
  refine triple_bind (triple_attempt hx) ?_
  intro r
  cases r with
  | ok a => exact triple_pure a fun s hs => hs
  | error e => exact hf e

/-- From one state, a program with its exception as a result. -/
theorem post_attempt {x : Program σ ε α} {s : σ} (hx : Post Q E (x.run s)) :
    Post (fun r s' => x.run s = (r, s') ∧ Post Q E (r, s')) E' (x.attempt.run s) := ⟨rfl, hx⟩

theorem post_handle {x : Program σ ε α} {f : ε → Program σ ε α} {s : σ} (hx : Post Q E (x.run s))
    (hf : ∀ e s', x.run s = (.error e, s') → E e s' → Post Q E' ((f e).run s')) :
    Post Q E' ((x.handle f).run s) := by
  refine post_bind (post_attempt hx) fun r s' _ hr => ?_
  cases r with
  | ok a => exact hr.2
  | error e => exact hf e s' hr.1 hr.2

/-- What holds of a result. -/
theorem Triple.of_ok {x : Program σ ε α} (h : Triple P x Q E) {s : σ} (hs : P s) {a : α}
    (ha : (x.run s).1 = .ok a) : Q a (x.run s).2 := by
  have hpost := h s hs
  cases hrun : x.run s with
  | mk r s' =>
    rw [hrun] at hpost ha
    obtain rfl : r = .ok a := ha
    exact hpost

/-- What holds after a result and after an exception holds at the end. -/
theorem Post.final {r : Except ε α × σ} (h : Post (fun _ => I) (fun _ => I) r) : I r.2 := by
  obtain ⟨r, s⟩ := r
  cases r with
  | ok a => exact h
  | error e => exact h

theorem Triple.final {x : Program σ ε α} (h : Triple P x (fun _ => I) fun _ => I) {s : σ}
    (hs : P s) : I (x.run s).2 := (h s hs).final

/-- What holds of one of some cases. -/
theorem triple_exists {κ : Type} {P : κ → σ → Prop} {x : Program σ ε α}
    (h : ∀ k, Triple (P k) x Q E) : Triple (fun s => ∃ k, P k s) x Q E := by
  rintro s ⟨k, hs⟩
  exact h k s hs

/-- What holds without regard to the state. -/
theorem triple_and_left {p : Prop} {x : Program σ ε α} (h : p → Triple P x Q E) :
    Triple (fun s => p ∧ P s) x Q E := fun s hs => h hs.1 s hs.2

/-- The rule of a loop: what is said of the steps that are left. -/
theorem triple_foldlM {f : β → α → Program σ ε β} (I : List α → β → σ → Prop)
    (hf : ∀ a xs b, Triple (I (a :: xs) b) (f b a) (I xs) E) (xs : List α) (b : β) :
    Triple (I xs b) (xs.foldlM f b) (I []) E := by
  induction xs generalizing b with
  | nil => exact triple_pure b fun _ h => h
  | cons a xs ih =>
    rw [List.foldlM_cons]
    exact triple_bind (hf a xs b) ih

/-! ## Invariants -/

theorem keeps_pure (a : α) : Keeps I (Pure.pure a : Program σ ε α) := triple_pure a fun _ h => h

theorem keeps_bind {x : Program σ ε α} {f : α → Program σ ε β} (hx : Keeps I x)
    (hf : ∀ a, Keeps I (f a)) : Keeps I (x >>= f) := triple_bind hx hf

theorem keeps_attempt {x : Program σ ε α} (h : Keeps I x) : Keeps I x.attempt := by
  refine (triple_attempt h).weaken (fun _ hs => hs) ?_ fun _ _ hs => hs
  intro r s hs
  cases r with
  | ok a => exact hs
  | error e => exact hs

theorem keeps_handle {x : Program σ ε α} {f : ε → Program σ ε α} (hx : Keeps I x)
    (hf : ∀ e, Keeps I (f e)) : Keeps I (x.handle f) := triple_handle hx hf

/-- What the body of a loop keeps, the loop keeps. -/
theorem keeps_foldlM {f : β → α → Program σ ε β} (hf : ∀ b a, Keeps I (f b a)) (b : β)
    (xs : List α) : Keeps I (xs.foldlM f b) := by
  induction xs generalizing b with
  | nil => exact keeps_pure b
  | cons a xs ih =>
    rw [List.foldlM_cons]
    exact keeps_bind (hf b a) ih

/-- An invariant holds in the state that a program ends in. -/
theorem Keeps.run {x : Program σ ε α} (h : Keeps I x) {s : σ} (hs : I s) : I (x.run s).2 :=
  h.final hs

end Program
