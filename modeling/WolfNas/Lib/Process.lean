import WolfNas.Lib.Run

/-!
# Processes that share a store

A process is a tree of calls on a store: a result, or a call and what follows each of its answers.
Run alone, it is a function on stores.  Run together, processes take turns, one call at a time.

What a process may call can depend on what it noted of the answers it got so far; this is a
property of the process alone.  What a pool of processes keeps is then a matter of single calls.

## Main definitions

* `Process C R α` — processes with calls `C`, answers `R` and results `α`.
* `Process.run` — a process runs alone.
* `Process.Ends` — what holds where a process that runs alone ends.
* `Process.Uses` — every call of a process is one of some kind.
* `Process.Obeys` — every call of a process is allowed by what it noted before.
* `Workshop`, `Pool`, `Pool.step` — processes that are started and take turns.
* `Pool.Meets` — a condition on the calls that are answered, and on what happens outside.

## Main results

* `Process.ends_bind`, `Process.uses_bind`, `Process.obeys_bind` — the rules of composition.
* `Pool.invariant` — what every allowed call keeps under the condition holds in every pool that a
  run reaches, and every process still obeys.
* `Pool.invariant_of_forall` — the same where the condition is none.
-/

/-- A result, or a call and what follows its answer. -/
inductive Process (C : Type) (R : C → Type) (α : Type)
  | ret (a : α)
  | call (c : C) (next : R c → Process C R α)

namespace Process

variable {C : Type} {R : C → Type} {α β L σ : Type}

/-- One process, and then another that depends on its result. -/
def bind : Process C R α → (α → Process C R β) → Process C R β
  | ret a, f => f a
  | call c next, f => call c fun r => (next r).bind f

instance : Monad (Process C R) where
  pure := ret
  bind := bind

/-- A single call. -/
def ask (c : C) : Process C R (R c) := call c ret

@[simp] theorem pure_eq (a : α) : (pure a : Process C R α) = ret a := rfl

@[simp] theorem ret_bind (a : α) (f : α → Process C R β) : (ret a >>= f) = f a := rfl

@[simp] theorem call_bind (c : C) (next : R c → Process C R α) (f : α → Process C R β) :
    (call c next >>= f) = call c fun r => next r >>= f := rfl

@[simp] theorem ask_bind (c : C) (f : R c → Process C R β) : (ask c >>= f) = call c f := rfl

/-! ## Alone -/

/-- The process runs alone: its result, and the store afterwards. -/
def run (exec : σ → (c : C) → σ × R c) : Process C R α → σ → α × σ
  | ret a, s => (a, s)
  | call c next, s => (next (exec s c).2).run exec (exec s c).1

variable (exec : σ → (c : C) → σ × R c)

@[simp] theorem run_ret (a : α) (s : σ) : (ret a : Process C R α).run exec s = (a, s) := rfl

@[simp] theorem run_call (c : C) (next : R c → Process C R α) (s : σ) :
    (call c next).run exec s = (next (exec s c).2).run exec (exec s c).1 := rfl

theorem run_bind (x : Process C R α) (f : α → Process C R β) (s : σ) :
    (x >>= f).run exec s = (f (x.run exec s).1).run exec (x.run exec s).2 := by
  induction x generalizing s with
  | ret a => rfl
  | call c next ih =>
    rw [call_bind, run_call, run_call]
    exact ih _ _

/-- From the store, the process alone ends with a result and a store that meet `Q`. -/
def Ends (exec : σ → (c : C) → σ × R c) (Q : α → σ → Prop) (x : Process C R α) (s : σ) : Prop :=
  Q (x.run exec s).1 (x.run exec s).2

variable {exec} in
/-- A weaker claim about the end. -/
theorem Ends.weaken {x : Process C R α} {Q Q' : α → σ → Prop} {s : σ} (hx : Ends exec Q x s)
    (hQ : ∀ a s, Q a s → Q' a s) : Ends exec Q' x s := hQ _ _ hx

variable {exec} in
theorem ends_bind {x : Process C R α} {f : α → Process C R β} {Q : α → σ → Prop} {Q' : β → σ → Prop}
    {s : σ} (hx : Ends exec Q x s) (hf : ∀ a s, Q a s → Ends exec Q' (f a) s) :
    Ends exec Q' (x >>= f) s := by
  rw [Ends, run_bind]
  exact hf _ _ hx

/-! ## What a process may call -/

/-- Every call is one of `U`, whatever was answered before. -/
def Uses (U : C → Prop) : Process C R α → Prop
  | ret _ => True
  | call c next => U c ∧ ∀ r, (next r).Uses U

@[simp] theorem uses_ret (U : C → Prop) (a : α) : (ret a : Process C R α).Uses U := trivial

@[simp] theorem uses_call (U : C → Prop) (c : C) (next : R c → Process C R α) :
    (call c next).Uses U ↔ U c ∧ ∀ r, (next r).Uses U := Iff.rfl

theorem uses_bind {U : C → Prop} {x : Process C R α} {f : α → Process C R β} (hx : x.Uses U)
    (hf : ∀ a, (f a).Uses U) : (x >>= f).Uses U := by
  induction x with
  | ret a => exact hf a
  | call c next ih => exact ⟨hx.1, fun r => ih r (hx.2 r)⟩

/-- Every call is allowed by what was noted before it, and the result meets `Q`. -/
def Obeys (allowed : L → C → Prop) (noted : L → (c : C) → R c → L) (Q : L → α → Prop) :
    L → Process C R α → Prop
  | l, ret a => Q l a
  | l, call c next => allowed l c ∧ ∀ r, Obeys allowed noted Q (noted l c r) (next r)

variable {allowed : L → C → Prop} {noted : L → (c : C) → R c → L} {Q : L → α → Prop}
  {Q' : L → β → Prop} {l : L}

@[simp] theorem obeys_ret (a : α) : Obeys allowed noted Q l (ret a) ↔ Q l a := Iff.rfl

@[simp] theorem obeys_call (c : C) (next : R c → Process C R α) :
    Obeys allowed noted Q l (call c next) ↔
      allowed l c ∧ ∀ r, Obeys allowed noted Q (noted l c r) (next r) := Iff.rfl

/-- A process obeys where its first part does, and the rest from there. -/
theorem obeys_bind {x : Process C R α} {f : α → Process C R β}
    (hx : Obeys allowed noted (fun l a => Obeys allowed noted Q' l (f a)) l x) :
    Obeys allowed noted Q' l (x >>= f) := by
  induction x generalizing l with
  | ret a => exact hx
  | call c next ih => exact ⟨hx.1, fun r => ih r (hx.2 r)⟩

/-- A process whose calls are always allowed obeys. -/
theorem obeys_of_uses {U : C → Prop} (hU : ∀ l c, U c → allowed l c) (hQ : ∀ l a, Q l a)
    {x : Process C R α} (hx : x.Uses U) : Obeys allowed noted Q l x := by
  induction x generalizing l with
  | ret a => exact hQ l a
  | call c next ih => exact ⟨hU l c hx.1, fun r => ih r (hx.2 r)⟩

/-- What every allowed call is, every call of a process that obeys is. -/
theorem Obeys.uses {U : C → Prop} (hU : ∀ l c, allowed l c → U c) {x : Process C R α}
    (hx : Obeys allowed noted Q l x) : x.Uses U := by
  induction x generalizing l with
  | ret a => trivial
  | call c next ih => exact ⟨hU l c hx.1, fun r => ih r (hx.2 r)⟩

/-- Calls of a wider kind. -/
theorem Uses.weaken {U V : C → Prop} (hUV : ∀ c, U c → V c) {x : Process C R α} (hx : x.Uses U) :
    x.Uses V := by
  induction x with
  | ret a => trivial
  | call c next ih => exact ⟨hUV c hx.1, fun r => ih r (hx.2 r)⟩

/-- A weaker claim about the result. -/
theorem Obeys.weaken {Q'' : L → α → Prop} {x : Process C R α} (hx : Obeys allowed noted Q l x)
    (hQ : ∀ l a, Q l a → Q'' l a) : Obeys allowed noted Q'' l x := by
  induction x generalizing l with
  | ret a => exact hQ l a hx
  | call c next ih => exact ⟨hx.1, fun r => ih r (hx.2 r)⟩

end Process

/-- What processes do, and the store they share: `O` are the operations that start one, `W` the
circumstances of an answer, `E` what happens outside, and `L` what is noted of the answers. -/
structure Workshop (σ O W E L C : Type) (R : C → Type) (α : Type) where
  /-- The answer to a call, where there is one yet. -/
  exec : σ → W → (c : C) → Option (σ × R c)
  drift : σ → E → σ
  program : O → Process C R α
  first : O → L
  noted : O → L → (c : C) → R c → L

/-- A process at work. -/
structure Worker (O L C : Type) (R : C → Type) (α : Type) where
  op : O
  note : L
  rest : Process C R α

/-- The store, and the processes started so far. -/
structure Pool (σ O L C : Type) (R : C → Type) (α : Type) where
  store : σ
  workers : List (Worker O L C R α) := []

/-- A process starts, the next call of one is answered, or something happens outside. -/
inductive PoolMove (O W E : Type)
  | start (op : O)
  | advance (i : ℕ) (w : W)
  | outside (e : E)

namespace Pool

variable {σ O W E L C : Type} {R : C → Type} {α : Type}

/-- The next call of a process is answered; one that has no answer yet waits. -/
def advance (shop : Workshop σ O W E L C R α) (p : Pool σ O L C R α) (i : ℕ) (w : W) :
    Pool σ O L C R α :=
  match p.workers[i]? with
  | some ⟨op, l, .call c next⟩ =>
    match shop.exec p.store w c with
    | some (s, r) => ⟨s, p.workers.set i ⟨op, shop.noted op l c r, next r⟩⟩
    | none => p
  | _ => p

/-- One move. -/
def step (shop : Workshop σ O W E L C R α) (p : Pool σ O L C R α) :
    PoolMove O W E → Pool σ O L C R α
  | .start op => { p with workers := p.workers ++ [⟨op, shop.first op, shop.program op⟩] }
  | .advance i w => p.advance shop i w
  | .outside e => { p with store := shop.drift p.store e }

/-- What is known of the processes: their operations and their notes. -/
def notes (p : Pool σ O L C R α) : List (O × L) := p.workers.map fun w => (w.op, w.note)

/-- The condition `D` holds of a call that is answered, and `D'` of what happens outside. -/
def Meets (D : σ → List (O × L) → W → ℕ → O → L → C → Prop) (D' : σ → List (O × L) → E → Prop)
    (p : Pool σ O L C R α) : PoolMove O W E → Prop
  | .start _ => True
  | .outside e => D' p.store p.notes e
  | .advance i w =>
    match p.workers[i]? with
    | some ⟨op, l, .call c _⟩ => D p.store p.notes w i op l c
    | _ => True

instance decidableMeets {D : σ → List (O × L) → W → ℕ → O → L → C → Prop}
    {D' : σ → List (O × L) → E → Prop} [∀ s ns w i op l c, Decidable (D s ns w i op l c)]
    [∀ s ns e, Decidable (D' s ns e)] (p : Pool σ O L C R α) (move : PoolMove O W E) :
    Decidable (p.Meets D D' move) := by
  unfold Meets
  split
  · infer_instance
  · infer_instance
  · split
    · infer_instance
    · infer_instance

/-- A weaker condition on what happens outside. -/
theorem Meets.weaken {D : σ → List (O × L) → W → ℕ → O → L → C → Prop}
    {D' D'' : σ → List (O × L) → E → Prop} (h : ∀ s ns e, D' s ns e → D'' s ns e)
    (p : Pool σ O L C R α) (move : PoolMove O W E) (hmeets : p.Meets D D' move) :
    p.Meets D D'' move := by
  cases move with
  | start op => trivial
  | advance i w => exact hmeets
  | outside e => exact h _ _ _ hmeets

section Invariant

variable {shop : Workshop σ O W E L C R α} {allowed : O → L → C → Prop} {Q : O → L → α → Prop}
  {Inv : σ → List (O × L) → Prop} {D : σ → List (O × L) → W → ℕ → O → L → C → Prop}
  {D' : σ → List (O × L) → E → Prop}

/-- The process obeys from where it is. -/
def Obeying (shop : Workshop σ O W E L C R α) (allowed : O → L → C → Prop) (Q : O → L → α → Prop)
    (w : Worker O L C R α) : Prop :=
  w.rest.Obeys (allowed w.op) (shop.noted w.op) (Q w.op) w.note

theorem obeying_step (hprogram : ∀ op, (shop.program op).Obeys (allowed op) (shop.noted op) (Q op)
      (shop.first op)) {p : Pool σ O L C R α} (hp : ∀ w ∈ p.workers, Obeying shop allowed Q w)
    (move : PoolMove O W E) : ∀ w ∈ (p.step shop move).workers, Obeying shop allowed Q w := by
  cases move with
  | start op =>
    intro w hw
    rcases List.mem_append.mp hw with hw | hw
    · exact hp w hw
    · obtain rfl := List.mem_singleton.mp hw
      exact hprogram op
  | outside e => exact hp
  | advance i v =>
    change ∀ w ∈ (p.advance shop i v).workers, Obeying shop allowed Q w
    unfold advance
    split
    · rename_i op l c next hworker
      have hnext : Obeying shop allowed Q ⟨op, l, .call c next⟩ := hp _ (List.mem_of_getElem? hworker)
      split
      · rename_i s r hexec
        intro w hw
        rcases List.mem_or_eq_of_mem_set hw with hw | rfl
        · exact hp w hw
        · exact hnext.2 r
      · exact hp
    · exact hp

theorem inv_step (hstart : ∀ s ns op, Inv s ns → Inv s (ns ++ [(op, shop.first op)]))
    (hcall : ∀ s ns w i op l c s' r, Inv s ns → ns[i]? = some (op, l) → allowed op l c →
      D s ns w i op l c → shop.exec s w c = some (s', r) → Inv s' (ns.set i (op, shop.noted op l c r)))
    (hdrift : ∀ s ns e, Inv s ns → D' s ns e → Inv (shop.drift s e) ns)
    {p : Pool σ O L C R α} (hp : ∀ w ∈ p.workers, Obeying shop allowed Q w)
    (hinv : Inv p.store p.notes) {move : PoolMove O W E} (hmeets : p.Meets D D' move) :
    Inv (p.step shop move).store (p.step shop move).notes := by
  cases move with
  | start op => simpa [step, notes] using hstart _ _ op hinv
  | outside e => exact hdrift _ _ e hinv hmeets
  | advance i v =>
    change Inv (p.advance shop i v).store (p.advance shop i v).notes
    unfold advance
    split
    · rename_i op l c next hworker
      have hnext : Obeying shop allowed Q ⟨op, l, .call c next⟩ := hp _ (List.mem_of_getElem? hworker)
      have hnote : p.notes[i]? = some (op, l) := by simp [notes, hworker]
      have hmet : D p.store p.notes v i op l c := by simpa [Meets, hworker] using hmeets
      split
      · rename_i s r hexec
        have hkept := hcall _ _ v i op l c s r hinv hnote hnext.1 hmet hexec
        simpa [notes, List.map_set] using hkept
      · exact hinv
    · exact hinv

/-- **An invariant of the single calls** holds in every pool that a run reaches, and every process
obeys from where it is. -/
theorem invariant (hprogram : ∀ op, (shop.program op).Obeys (allowed op) (shop.noted op) (Q op)
      (shop.first op))
    (hstart : ∀ s ns op, Inv s ns → Inv s (ns ++ [(op, shop.first op)]))
    (hcall : ∀ s ns w i op l c s' r, Inv s ns → ns[i]? = some (op, l) → allowed op l c →
      D s ns w i op l c → shop.exec s w c = some (s', r) → Inv s' (ns.set i (op, shop.noted op l c r)))
    (hdrift : ∀ s ns e, Inv s ns → D' s ns e → Inv (shop.drift s e) ns)
    {p : Pool σ O L C R α} (hp : ∀ w ∈ p.workers, Obeying shop allowed Q w)
    (hinv : Inv p.store p.notes) {moves : List (PoolMove O W E)}
    (hmeets : Run.Along (step shop) (Meets D D') p moves) :
    (∀ w ∈ (moves.foldl (step shop) p).workers, Obeying shop allowed Q w) ∧
      Inv (moves.foldl (step shop) p).store (moves.foldl (step shop) p).notes := by
  refine Run.invariant_along (fun p : Pool σ O L C R α =>
    (∀ w ∈ p.workers, Obeying shop allowed Q w) ∧ Inv p.store p.notes) ⟨hp, hinv⟩ hmeets ?_
  intro p move h hmove
  exact ⟨obeying_step hprogram h.1 move, inv_step hstart hcall hdrift h.1 h.2 hmove⟩

/-- **An invariant of the single calls**, whatever the circumstances. -/
theorem invariant_of_forall (hprogram : ∀ op, (shop.program op).Obeys (allowed op) (shop.noted op)
      (Q op) (shop.first op))
    (hstart : ∀ s ns op, Inv s ns → Inv s (ns ++ [(op, shop.first op)]))
    (hcall : ∀ s ns w i op l c s' r, Inv s ns → ns[i]? = some (op, l) → allowed op l c →
      shop.exec s w c = some (s', r) → Inv s' (ns.set i (op, shop.noted op l c r)))
    (hdrift : ∀ s ns e, Inv s ns → Inv (shop.drift s e) ns)
    {p : Pool σ O L C R α} (hp : ∀ w ∈ p.workers, Obeying shop allowed Q w)
    (hinv : Inv p.store p.notes) (moves : List (PoolMove O W E)) :
    (∀ w ∈ (moves.foldl (step shop) p).workers, Obeying shop allowed Q w) ∧
      Inv (moves.foldl (step shop) p).store (moves.foldl (step shop) p).notes := by
  have hany : ∀ (p : Pool σ O L C R α) (move : PoolMove O W E),
      p.Meets (fun _ _ _ _ _ _ _ => True) (fun _ _ _ => True) move := by
    intro p move
    cases move with
    | start op => trivial
    | outside e => trivial
    | advance i w =>
      simp only [Meets]
      split
      · trivial
      · trivial
  refine invariant hprogram hstart ?_ ?_ hp hinv (Run.along_of_forall hany p moves)
  · intro s ns w i op l c s' r h hi hallowed _ hexec
    exact hcall s ns w i op l c s' r h hi hallowed hexec
  · intro s ns e h _
    exact hdrift s ns e h

end Invariant

end Pool
