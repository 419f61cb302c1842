import WolfNas.Lib.Process
import Mathlib.Algebra.Order.Ring.Rat
import Mathlib.Logic.Function.Basic
import Mathlib.Tactic.Linarith

/-!
# The request deduper

Callers of one key share a request: the first executes it and records its result, the others wait
for its event and read the record.  Records are purged some seconds after their request ended, by
whatever call comes next.  Every block that holds the lock is one step, and callers take turns
between them.

## Main definitions

* `DeduperTable` — the records, the events, and what was executed and purged so far.
* `DeduperCall`, `DeduperTable.serve` — the steps of a call.
* `Deduper.execute` — a call.
* `Deduper.Answered` — what a caller that waits may get.

## Main results

* `Deduper.inv_serve`, `Deduper.inv_call` — what every step keeps.
* `Deduper.answered` — a caller that waits gets the result of an execution that ended after its
  call began, or was still kept then, or times out, unless its record was purged meanwhile.
-/

namespace WolfNas

/-- `_RESULT_TTL`. -/
def resultTtl : ℚ := 5

/-- A record: its event, the result or the error, and when it can be purged. -/
structure DeduperRecord (R E : Type) where
  event : ℕ
  result : Option R
  error : Option E
  expiry : ℚ

/-- What one execution gave, for which key and event. -/
structure Executed (K R E : Type) where
  key : K
  event : ℕ
  outcome : Except E (Option R)

/-- What a call of `execute` returns or raises. -/
inductive DeduperResult (R E : Type)
  | value (result : Option R)
  | raised (error : E)
  /-- `RuntimeError`: the record has been cleaned up. -/
  | cleaned
  | timeout

/-- The result of an execution. -/
def DeduperResult.of {R E : Type} : Except E (Option R) → DeduperResult R E
  | .ok result => .value result
  | .error e => .raised e

/-- What a caller makes of a record. -/
def DeduperRecord.answer {R E : Type} (rec : DeduperRecord R E) : DeduperResult R E :=
  match rec.error with
  | some e => .raised e
  | none => .value rec.result

/-- An event, with the key of its request, and when it was set. -/
structure DeduperEvent (K : Type) where
  key : K
  setAt : Option ℚ := none

/-- The deduper; events are numbered. -/
structure DeduperTable (K R E : Type) where
  now : ℚ := 0
  events : List (DeduperEvent K) := []
  /-- `_pending_requests`. -/
  pending : K → Option (DeduperRecord R E) := fun _ => none
  /-- What was executed so far. -/
  executed : List (Executed K R E) := []
  /-- The events whose records were purged. -/
  purged : ℕ → Bool := fun _ => false

/-- A step of a call. -/
inductive DeduperCall (K R E : Type)
  | clock
  | purge (now : ℚ)
  | register (key : K)
  | run (key : K) (event : ℕ)
  | finish (key : K) (event : ℕ) (outcome : Except E (Option R))
  | set (event : ℕ)
  | lookup (key : K)
  | wait (event : ℕ)
  | read (key : K)

/-- Whether a request is pending; the caller uses the event of a new one only. -/
inductive Registered
  | pending (event : ℕ)
  | new (event : ℕ)

/-- The answer to a step. -/
@[reducible] def DeduperCall.Reply (K R E : Type) : DeduperCall K R E → Type
  | .clock => ℚ
  | .purge _ => Unit
  | .register _ => Registered
  | .run _ _ => Except E (Option R)
  | .finish _ _ _ => Unit
  | .set _ => Unit
  | .lookup _ => Option ℕ
  | .wait _ => Bool
  | .read _ => Option (DeduperRecord R E)

/-- What the request gives when it is executed, and whether a wait runs out of time. -/
structure DeduperTurn (R E : Type) where
  outcome : Except E (Option R) := .ok none
  timeout : Bool := false

namespace DeduperTable

variable {K R E : Type} [DecidableEq K] (s : DeduperTable K R E)

/-- When the event was set. -/
def setAt (event : ℕ) : Option ℚ := s.events[event]?.bind DeduperEvent.setAt

/-- A record that a purge removes. -/
def stale (now : ℚ) (rec : DeduperRecord R E) : Bool :=
  (s.setAt rec.event).isSome && (decide (rec.expiry ≠ 0) && decide (rec.expiry < now))

/-- `_purge_expired`. -/
def purge (now : ℚ) : DeduperTable K R E where
  now := s.now
  events := s.events
  pending key := (s.pending key).filter fun rec => !s.stale now rec
  executed := s.executed
  purged event := s.purged event || s.events[event]?.any fun e =>
    (s.pending e.key).any fun rec => decide (rec.event = event) && s.stale now rec

/-- A new request of the key. -/
def begin (key : K) : DeduperTable K R E :=
  { s with
    events := s.events ++ [{ key }]
    pending := Function.update s.pending key (some ⟨s.events.length, none, none, 0⟩) }

/-- The event is set. -/
def mark (event : ℕ) : DeduperTable K R E :=
  { s with events := s.events.modify event fun e => { e with setAt := some s.now } }

/-- The result of a request is recorded. -/
def conclude (key : K) (rec : DeduperRecord R E) : DeduperTable K R E :=
  { s with pending := Function.update s.pending key (some rec) }

/-- What an execution gave. -/
def execution (key : K) (event : ℕ) (outcome : Except E (Option R)) : DeduperTable K R E :=
  { s with executed := s.executed ++ [⟨key, event, outcome⟩] }

/-- The record of a request that has ended. -/
def ended (event : ℕ) : Except E (Option R) → DeduperRecord R E
  | .ok result => ⟨event, result, none, s.now + resultTtl⟩
  | .error error => ⟨event, none, some error, s.now + resultTtl⟩

/-- One step; a wait has no answer until the event is set or the time is over. -/
def serve (w : DeduperTurn R E) :
    (c : DeduperCall K R E) → Option (DeduperTable K R E × DeduperCall.Reply K R E c)
  | .clock => some (s, s.now)
  | .purge now => some (s.purge now, ())
  | .register key =>
    match s.pending key with
    | some rec => some (s, .pending rec.event)
    | none => some (s.begin key, .new s.events.length)
  | .run key event => some (s.execution key event w.outcome, w.outcome)
  | .finish key event outcome => some (s.conclude key (s.ended event outcome), ())
  | .set event => some (s.mark event, ())
  | .lookup key => some (s, (s.pending key).map DeduperRecord.event)
  | .wait event =>
    if (s.setAt event).isSome then some (s, true) else if w.timeout then some (s, false) else none
  | .read key => some (s, s.pending key)

end DeduperTable

/-! ## A call -/

/-- What is known of a caller. -/
structure DeduperNote (R E : Type) where
  /-- When its call began. -/
  began : Option ℚ := none
  /-- It has purged what was stale. -/
  swept : Bool := false
  /-- The event of its own request, until that is set. -/
  leads : Option ℕ := none
  /-- What its request gave. -/
  outcome : Option (Except E (Option R)) := none
  finished : Bool := false
  /-- The event of the request that it found pending. -/
  found : Option ℕ := none
  /-- The event that it waits for. -/
  waits : Option ℕ := none
  woken : Bool := false
  /-- Its key was not there when it looked. -/
  missed : Bool := false
  /-- The record that it read. -/
  record : Option (DeduperRecord R E) := none

/-- A caller that has purged what was stale. -/
abbrev DeduperNote.ready {R E : Type} (began : ℚ) : DeduperNote R E :=
  { began := some began, swept := true }

namespace Deduper

variable {K R E : Type}

/-- Part of a call. -/
abbrev Sharing (K R E α : Type) := Process (DeduperCall K R E) (DeduperCall.Reply K R E) α

/-- A single step. -/
def ask (c : DeduperCall K R E) : Sharing K R E (DeduperCall.Reply K R E c) := Process.ask c

/-- `_wait_for_result`. -/
def waitForResult (key : K) : Sharing K R E (DeduperResult R E) := do
  match ← ask (.lookup key) with
  | none => return .cleaned
  | some event =>
    if ← ask (.wait event) then
      match ← ask (.read key) with
      | none => return .cleaned
      | some rec => return rec.answer
    else return .timeout

/-- `execute`; the request itself is one step. -/
def execute (key : K) : Sharing K R E (DeduperResult R E) := do
  let now ← ask .clock
  let _ ← ask (.purge now)
  match ← ask (.register key) with
  | .pending _ => waitForResult key
  | .new event =>
    let outcome ← ask (.run key event)
    let _ ← ask (.finish key event outcome)
    let _ ← ask (.set event)
    return .of outcome

/-- What a step adds to what is known of a caller. -/
def noted (l : DeduperNote R E) : (c : DeduperCall K R E) → DeduperCall.Reply K R E c → DeduperNote R E
  | .clock, now => { l with began := some now }
  | .purge _, _ => { l with swept := true }
  | .register _, .pending event => { l with found := some event }
  | .register _, .new event => { l with leads := some event }
  | .run _ _, outcome => { l with outcome := some outcome }
  | .finish _ _ _, _ => { l with finished := true }
  | .set _, _ => { l with leads := none }
  | .lookup _, some event => { l with waits := some event }
  | .lookup _, none => { l with missed := true }
  | .wait _, woken => { l with woken }
  | .read _, some rec => { l with record := some rec }
  | .read _, none => { l with missed := true }

/-- Callers of any keys; outside, time passes. -/
def shop [DecidableEq K] : Workshop (DeduperTable K R E) K (DeduperTurn R E) ℚ (DeduperNote R E) (DeduperCall K R E)
    (DeduperCall.Reply K R E) (DeduperResult R E) where
  exec s w c := s.serve w c
  drift s now := { s with now := max s.now now }
  program := execute
  first _ := {}
  noted _ := noted

/-- The steps of a caller of the key, by what is known of it. -/
def Allowed (key : K) (l : DeduperNote R E) : DeduperCall K R E → Prop
  | .clock => l = {}
  | .purge now => l = { began := some now }
  | .register k => k = key ∧ ∃ b, l = .ready b
  | .run k event => k = key ∧ ∃ b, l = { DeduperNote.ready b with leads := some event }
  | .finish k event outcome => k = key ∧ ∃ b, l =
    { DeduperNote.ready b with leads := some event, outcome := some outcome }
  | .set event => ∃ b o, l =
    { DeduperNote.ready b with leads := some event, outcome := some o, finished := true }
  | .lookup k => k = key ∧ ∃ b e, l = { DeduperNote.ready b with found := some e }
  | .wait event => ∃ b e, l = { DeduperNote.ready b with found := some e, waits := some event }
  | .read k => k = key ∧ ∃ b e e', l =
    { DeduperNote.ready b with found := some e, waits := some e', woken := true }

/-- What a caller that waits ends with. -/
def Ended (l : DeduperNote R E) (r : DeduperResult R E) : Prop :=
  l.found.isSome → r = .timeout ∨ (r = .cleaned ∧ l.missed) ∨ ∃ rec, l.record = some rec ∧ r = rec.answer

theorem obeys_execute (key : K) :
    (execute key : Sharing K R E (DeduperResult R E)).Obeys (Allowed key) noted Ended {} := by
  refine ⟨rfl, fun now => ⟨rfl, fun _ => ⟨⟨rfl, now, rfl⟩, ?_⟩⟩⟩
  intro registered
  cases registered with
  | new event =>
    refine ⟨⟨rfl, now, rfl⟩, fun outcome => ⟨⟨rfl, now, rfl⟩, fun _ => ⟨⟨now, outcome, rfl⟩, ?_⟩⟩⟩
    intro _ hfound
    cases hfound
  | pending event =>
    refine ⟨⟨rfl, now, event, rfl⟩, fun looked => ?_⟩
    cases looked with
    | none => exact fun _ => .inr (.inl ⟨rfl, rfl⟩)
    | some event' =>
      refine ⟨⟨now, event, rfl⟩, fun woken => ?_⟩
      cases woken with
      | false => exact fun _ => .inl rfl
      | true =>
        refine ⟨⟨rfl, now, event, event', rfl⟩, fun read => ?_⟩
        cases read with
        | none => exact fun _ => .inr (.inl ⟨rfl, rfl⟩)
        | some rec => exact fun _ => .inr (.inr ⟨rec, rfl, rfl⟩)

/-! ## What steps do to the table -/

section

variable {s s' : DeduperTable K R E} {key : K} {l l' : DeduperNote R E}

/-- How a table comes from an earlier one: nothing is taken back but by a purge, and what is set is
set now. -/
structure Grows (s s' : DeduperTable K R E) : Prop where
  now : s.now ≤ s'.now
  executed : ∀ x ∈ s.executed, x ∈ s'.executed
  purged : ∀ e, s.purged e → s'.purged e
  setAt : ∀ e t, s.setAt e = some t → s'.setAt e = some t
  kept : ∀ k rec, s.pending k = some rec →
    s'.purged rec.event ∨ ∃ rec', s'.pending k = some rec' ∧ rec'.event = rec.event
  recent : ∀ k rec t, s'.pending k = some rec → s'.setAt rec.event = some t →
    (∃ rec', s.pending k = some rec' ∧ s.setAt rec'.event = some t) ∨ s.now ≤ t

theorem Grows.refl (s : DeduperTable K R E) : Grows s s where
  now := le_rfl
  executed _ hx := hx
  purged _ he := he
  setAt _ _ ht := ht
  kept _ rec hrec := .inr ⟨rec, hrec, rfl⟩
  recent _ rec _ hrec ht := .inl ⟨rec, hrec, ht⟩

/-- What a caller knows of the table. -/
structure Steady (s : DeduperTable K R E) (key : K) (l : DeduperNote R E) : Prop where
  began : ∀ b, l.began = some b → b ≤ s.now
  /-- What has ended and is still there, ended late enough. -/
  swept : l.swept → ∃ b, l.began = some b ∧ ∀ k rec t, s.pending k = some rec →
    s.setAt rec.event = some t → b ≤ t + resultTtl
  found : ∀ e, l.found = some e → l.swept ∧
    (s.purged e ∨ ∃ rec, s.pending key = some rec ∧ rec.event = e)
  waits : ∀ e e', l.found = some e → l.waits = some e' → s.purged e ∨ e' = e
  woken : l.woken → ∀ e, l.waits = some e → ∃ t, s.setAt e = some t
  missed : l.missed → ∀ e, l.found = some e → s.purged e
  record : ∀ rec e, l.record = some rec → l.found = some e → s.purged e ∨
    ∃ x ∈ s.executed, x.key = key ∧ rec.answer = .of x.outcome ∧
      ∃ t b, s.setAt x.event = some t ∧ l.began = some b ∧ b ≤ t + resultTtl

theorem Steady.grows (h : Steady s key l) (hgrows : Grows s s') : Steady s' key l where
  began b hb := (h.began b hb).trans hgrows.now
  swept hswept := by
    obtain ⟨b, hb, hlate⟩ := h.swept hswept
    refine ⟨b, hb, fun k rec t hrec ht => ?_⟩
    rcases hgrows.recent k rec t hrec ht with ⟨rec', hrec', ht'⟩ | hnow
    · exact hlate k rec' t hrec' ht'
    · have hbnow := h.began b hb
      have hpos : (0 : ℚ) ≤ resultTtl := by norm_num [resultTtl]
      linarith
  found e he := by
    obtain ⟨hswept, hpurged | ⟨rec, hrec, rfl⟩⟩ := h.found e he
    · exact ⟨hswept, .inl (hgrows.purged e hpurged)⟩
    · exact ⟨hswept, hgrows.kept key rec hrec⟩
  waits e e' he he' := (h.waits e e' he he').imp_left (hgrows.purged e)
  woken hwoken e he := by
    obtain ⟨t, ht⟩ := h.woken hwoken e he
    exact ⟨t, hgrows.setAt e t ht⟩
  missed hmissed e he := hgrows.purged e (h.missed hmissed e he)
  record rec e hrec he := by
    rcases h.record rec e hrec he with hpurged | ⟨x, hx, hkey, hanswer, t, b, ht, hb⟩
    · exact .inl (hgrows.purged e hpurged)
    · exact .inr ⟨x, hgrows.executed x hx, hkey, hanswer, t, b, hgrows.setAt _ t ht, hb⟩

/-- A record that is complete. -/
def Complete (s : DeduperTable K R E) (key : K) (rec : DeduperRecord R E) : Prop :=
  0 < rec.expiry ∧ ∃ o, ⟨key, rec.event, o⟩ ∈ s.executed ∧ rec.answer = .of o

/-- The record of a request whose caller has not ended is there, and its event is not set. -/
def Leads (s : DeduperTable K R E) (key : K) (l : DeduperNote R E) : Prop :=
  ∀ e, l.leads = some e → s.setAt e = none ∧
    (∀ o, l.outcome = some o → ⟨key, e, o⟩ ∈ s.executed) ∧
    ∃ rec, s.pending key = some rec ∧ rec.event = e ∧
      (l.finished → rec.expiry ≤ s.now + resultTtl ∧ Complete s key rec)

/-- What every step keeps. -/
structure Inv (s : DeduperTable K R E) (ns : List (K × DeduperNote R E)) : Prop where
  clock : 0 ≤ s.now
  events : ∀ k rec, s.pending k = some rec → ∃ ev, s.events[rec.event]? = some ev ∧ ev.key = k
  done : ∀ k rec t, s.pending k = some rec → s.setAt rec.event = some t →
    rec.expiry ≤ t + resultTtl ∧ Complete s k rec
  steady : ∀ (i : ℕ) (k : K) (m : DeduperNote R E), ns[i]? = some (k, m) → Steady s k m
  leads : ∀ (i : ℕ) (k : K) (m : DeduperNote R E), ns[i]? = some (k, m) → Leads s k m
  apart : ∀ (i j : ℕ) (k k' : K) (m m' : DeduperNote R E) (e : ℕ), ns[i]? = some (k, m) →
    ns[j]? = some (k', m') → m.leads = some e → m'.leads = some e → i = j

variable {ns : List (K × DeduperNote R E)} {i : ℕ}

/-- A step changes the table, and what one caller knows. -/
theorem Inv.change (h : Inv s ns) (hi : ns[i]? = some (key, l)) (hgrows : Grows s s')
    (hevents : ∀ k rec, s'.pending k = some rec → ∃ ev, s'.events[rec.event]? = some ev ∧ ev.key = k)
    (hdone : ∀ k rec t, s'.pending k = some rec → s'.setAt rec.event = some t →
      rec.expiry ≤ t + resultTtl ∧ Complete s' k rec)
    (hothers : ∀ (j : ℕ) (k : K) (m : DeduperNote R E), j ≠ i → ns[j]? = some (k, m) →
      Leads s' k m)
    (hsteady : Steady s' key l') (hleads : Leads s' key l')
    (hown : ∀ e, l'.leads = some e → l.leads = some e ∨
      ∀ (j : ℕ) (k : K) (m : DeduperNote R E), ns[j]? = some (k, m) → m.leads ≠ some e) :
    Inv s' (ns.set i (key, l')) := by
  have hlt : i < ns.length := (List.getElem?_eq_some_iff.mp hi).1
  have hself : (ns.set i (key, l'))[i]? = some (key, l') := List.getElem?_set_self hlt
  have hother : ∀ j, j ≠ i → (ns.set i (key, l'))[j]? = ns[j]? := fun j hj =>
    List.getElem?_set_ne (Ne.symm hj)
  refine ⟨h.clock.trans hgrows.now, hevents, hdone, ?_, ?_, ?_⟩
  · intro j k m hj
    by_cases hij : j = i
    · subst hij
      obtain ⟨rfl, rfl⟩ := Prod.mk.inj (Option.some.inj (hself.symm.trans hj))
      exact hsteady
    · rw [hother j hij] at hj
      exact (h.steady j k m hj).grows hgrows
  · intro j k m hj
    by_cases hij : j = i
    · subst hij
      obtain ⟨rfl, rfl⟩ := Prod.mk.inj (Option.some.inj (hself.symm.trans hj))
      exact hleads
    · rw [hother j hij] at hj
      exact hothers j k m hij hj
  · -- an event is led by one caller
    have hmine : ∀ (j : ℕ) (k : K) (m : DeduperNote R E) (e : ℕ), j ≠ i → ns[j]? = some (k, m) →
        l'.leads = some e → m.leads = some e → False := by
      intro j k m e hij hj he hm
      rcases hown e he with hbefore | hfresh
      · exact hij (h.apart j i k key m l e hj hi hm hbefore)
      · exact hfresh j k m hj hm
    intro j j' k k' m m' e hj hj' he he'
    by_cases hij : j = i
    · subst hij
      obtain ⟨rfl, rfl⟩ := Prod.mk.inj (Option.some.inj (hself.symm.trans hj))
      by_contra hne
      rw [hother j' (Ne.symm hne)] at hj'
      exact hmine j' k' m' e (Ne.symm hne) hj' he he'
    · rw [hother j hij] at hj
      by_cases hij' : j' = i
      · subst hij'
        obtain ⟨rfl, rfl⟩ := Prod.mk.inj (Option.some.inj (hself.symm.trans hj'))
        exact (hmine j k m e hij hj he' he).elim
      · rw [hother j' hij'] at hj'
        exact h.apart j j' k k' m m' e hj hj' he he'

/-- A step that only tells a caller something. -/
theorem Inv.note (h : Inv s ns) (hi : ns[i]? = some (key, l)) (hsteady : Steady s key l')
    (hnone : l'.leads = none) : Inv s (ns.set i (key, l')) := by
  refine h.change hi (.refl s) h.events h.done (fun j k m _ hj => h.leads j k m hj) hsteady ?_ ?_
  · intro e he
    exact absurd (hnone.symm.trans he) (by simp)
  · intro e he
    exact absurd (hnone.symm.trans he) (by simp)

/-! ## The steps -/

/-- A purge removes records whose events are set. -/
theorem inv_purge (h : Inv s ns) (hi : ns[i]? = some (key, l)) {now : ℚ} (hbegan : l.began = some now)
    (hleads : l.leads = none) (hfound : l.found = none) :
    Inv (s.purge now) (ns.set i (key, { l with swept := true })) := by
  have hpending : ∀ k rec, (s.purge now).pending k = some rec ↔
      s.pending k = some rec ∧ s.stale now rec = false := by
    intro k rec
    change (s.pending k).filter _ = some rec ↔ _
    rw [Option.filter_eq_some_iff]
    simp
  have hgrows : Grows s (s.purge now) := by
    refine ⟨le_rfl, fun x hx => hx, fun e he => ?_, fun e t ht => ht, fun k rec hrec => ?_, ?_⟩
    · change (s.purged e || _) = true
      rw [he, Bool.true_or]
    · by_cases hstale : s.stale now rec
      · left
        obtain ⟨ev, hev, rfl⟩ := h.events k rec hrec
        change (s.purged rec.event || (s.events[rec.event]?).any _) = true
        simp [hev, hrec, hstale]
      · exact .inr ⟨rec, (hpending k rec).mpr ⟨hrec, by simpa using hstale⟩, rfl⟩
    · intro k rec t hrec ht
      exact .inl ⟨rec, ((hpending k rec).mp hrec).1, ht⟩
  have hsteady := (h.steady i key l hi).grows hgrows
  refine h.change hi hgrows ?_ ?_ ?_ ?_ ?_ ?_
  · intro k rec hrec
    exact h.events k rec ((hpending k rec).mp hrec).1
  · intro k rec t hrec ht
    exact h.done k rec t ((hpending k rec).mp hrec).1 ht
  · intro j k m _ hj e he
    obtain ⟨hunset, hran, rec, hrec, rfl, hfinished⟩ := h.leads j k m hj e he
    have hfresh : s.stale now rec = false := by
      rw [DeduperTable.stale, hunset]
      rfl
    exact ⟨hunset, hran, rec, (hpending k rec).mpr ⟨hrec, hfresh⟩, rfl, hfinished⟩
  · refine { hsteady with swept := fun _ => ⟨now, hbegan, fun k rec t hrec ht => ?_⟩, found := ?_ }
    · -- what has ended and is kept expires after now
      obtain ⟨hbefore, hkept⟩ := (hpending k rec).mp hrec
      obtain ⟨hexpiry, hpos, -⟩ := h.done k rec t hbefore ht
      have hlate : now ≤ rec.expiry := by
        have hset : s.setAt rec.event = some t := ht
        simpa [DeduperTable.stale, hset, hpos.ne'] using hkept
      exact hlate.trans hexpiry
    · intro e he
      exact absurd (hfound.symm.trans he) (by simp)
  · intro e he
    exact absurd (hleads.symm.trans he) (by simp)
  · intro e he
    exact absurd (hleads.symm.trans he) (by simp)

/-- An event that is not there has not been set. -/
theorem setAt_of_length_le {e : ℕ} (he : s.events.length ≤ e) : s.setAt e = none := by
  rw [DeduperTable.setAt, List.getElem?_eq_none he]
  rfl

theorem setAt_mark {event e : ℕ} : (s.mark event).setAt e =
    if event = e ∧ e < s.events.length then some s.now else s.setAt e := by
  change ((s.events.modify event _)[e]?).bind _ = _
  rw [List.getElem?_modify]
  by_cases he : event = e
  · subst he
    by_cases hlt : event < s.events.length
    · simp [hlt]
    · rw [if_neg fun hboth => hlt hboth.2, setAt_of_length_le (not_lt.mp hlt),
        List.getElem?_eq_none (not_lt.mp hlt)]
      rfl
  · rw [if_neg fun hboth => he hboth.1]
    simp [he, DeduperTable.setAt]

/-- The execution of a request. -/
theorem inv_execute (h : Inv s ns) (hi : ns[i]? = some (key, l)) {event : ℕ}
    (hevent : l.leads = some event) (hfinished : l.finished = false) (outcome : Except E (Option R)) :
    Inv (s.execution key event outcome)
      (ns.set i (key, { l with outcome := some outcome })) := by
  have hgrows : Grows s (s.execution key event outcome) :=
    { Grows.refl s with executed := fun x hx => List.mem_append_left _ hx }
  have hcomplete : ∀ k rec, Complete s k rec →
      Complete (s.execution key event outcome) k rec := by
    rintro k rec ⟨hpos, o, ho, hanswer⟩
    exact ⟨hpos, o, List.mem_append_left _ ho, hanswer⟩
  have hsteady := (h.steady i key l hi).grows hgrows
  refine h.change hi hgrows h.events ?_ ?_ { hsteady with } ?_ fun e he => .inl he
  · intro k rec t hrec ht
    obtain ⟨hexpiry, hdone⟩ := h.done k rec t hrec ht
    exact ⟨hexpiry, hcomplete k rec hdone⟩
  · intro j k m _ hj e he
    obtain ⟨hunset, hran, rec, hrec, hrece, hdone⟩ := h.leads j k m hj e he
    refine ⟨hunset, fun o ho => List.mem_append_left _ (hran o ho), rec, hrec, hrece, fun hf => ?_⟩
    exact ⟨(hdone hf).1, hcomplete k rec (hdone hf).2⟩
  · intro e he
    obtain ⟨hunset, -, rec, hrec, hrece, -⟩ := h.leads i key l hi e he
    refine ⟨hunset, fun o ho => ?_, rec, hrec, hrece, fun hf => ?_⟩
    · obtain rfl := Option.some.inj ho
      obtain rfl : event = e := Option.some.inj (hevent.symm.trans he)
      exact List.mem_append_right _ (List.mem_singleton.mpr rfl)
    · exact absurd (hfinished.symm.trans hf) (by simp)

/-- The event of a request is set. -/
theorem inv_setEvent (h : Inv s ns) (hi : ns[i]? = some (key, l)) {event : ℕ}
    (hevent : l.leads = some event) (hfinished : l.finished) :
    Inv (s.mark event) (ns.set i (key, { l with leads := none })) := by
  obtain ⟨hunset, -, rec₀, hrec₀, hevent₀, hdone₀⟩ := h.leads i key l hi event hevent
  obtain ⟨hexpiry₀, hcomplete₀⟩ := hdone₀ hfinished
  have hgrows : Grows s (s.mark event) := by
    refine ⟨le_rfl, fun x hx => hx, fun e he => he, fun e t ht => ?_, fun k rec hrec => ?_, ?_⟩
    · have hne : event ≠ e := by
        intro heq
        subst heq
        exact absurd (hunset.symm.trans ht) (by simp)
      rw [setAt_mark, if_neg fun hboth => hne hboth.1]
      exact ht
    · exact .inr ⟨rec, hrec, rfl⟩
    · intro k rec t hrec ht
      rw [setAt_mark] at ht
      split_ifs at ht with he
      · exact .inr (Option.some.inj ht).le
      · exact .inl ⟨rec, hrec, ht⟩
  have hsteady := (h.steady i key l hi).grows hgrows
  refine h.change hi hgrows ?_ ?_ ?_ { hsteady with } ?_ ?_
  · intro k rec hrec
    obtain ⟨ev, hev, hkey⟩ := h.events k rec hrec
    change ∃ ev, (s.events.modify event _)[rec.event]? = some ev ∧ _
    rw [List.getElem?_modify, hev]
    refine ⟨_, rfl, ?_⟩
    split_ifs
    · exact hkey
    · exact hkey
  · intro k rec t hrec ht
    rw [setAt_mark] at ht
    split_ifs at ht with he
    · obtain rfl := Option.some.inj ht
      -- the record is that of the request
      have hk : k = key := by
        obtain ⟨ev, hev, rfl⟩ := h.events k rec hrec
        obtain ⟨ev', hev', rfl⟩ := h.events key rec₀ hrec₀
        rw [hevent₀, he.1] at hev'
        rw [Option.some.inj (hev.symm.trans hev')]
      subst hk
      obtain rfl : rec₀ = rec := Option.some.inj (hrec₀.symm.trans hrec)
      exact ⟨hexpiry₀, hcomplete₀⟩
    · exact h.done k rec t hrec ht
  · intro j k m hji hj e he
    obtain ⟨hunset', hran', rec, hrec, hrece, hdone⟩ := h.leads j k m hj e he
    have hne : event ≠ e := by
      intro heq
      subst heq
      exact hji (h.apart j i k key m l event hj hi he hevent)
    refine ⟨?_, hran', rec, hrec, hrece, hdone⟩
    rw [setAt_mark, if_neg fun hboth => hne hboth.1]
    exact hunset'
  · intro e he
    cases he
  · intro e he
    cases he

/-! ## What a caller is told -/

/-- A caller finds a request pending. -/
theorem inv_found (h : Inv s ns) {b : ℚ} (hi : ns[i]? = some (key, .ready b))
    {rec : DeduperRecord R E} (hrec : s.pending key = some rec) :
    Inv s (ns.set i (key, { DeduperNote.ready b with found := some rec.event })) := by
  refine h.note hi { h.steady i key _ hi with found := ?_, waits := ?_, missed := ?_, record := ?_ } rfl
  · intro e he
    exact ⟨rfl, .inr ⟨rec, hrec, Option.some.inj he⟩⟩
  · intro e e' _ he'
    cases he'
  · intro hmissed
    cases hmissed
  · intro _ _ hread
    cases hread

/-- A caller looks for the event to wait for. -/
theorem inv_looked (h : Inv s ns) {b : ℚ} {e : ℕ}
    (hi : ns[i]? = some (key, { DeduperNote.ready b with found := some e })) :
    Inv s (ns.set i (key, noted { DeduperNote.ready b with found := some e }
      (.lookup key) ((s.pending key).map DeduperRecord.event))) := by
  have hsteady := h.steady i key _ hi
  obtain ⟨-, hfound⟩ := hsteady.found e rfl
  cases hrec : s.pending key with
  | none =>
    refine h.note hi { hsteady with missed := ?_ } rfl
    intro _ e' he'
    obtain rfl : e = e' := Option.some.inj he'
    rcases hfound with hpurged | ⟨rec, hrec', -⟩
    · exact hpurged
    · exact absurd (hrec.symm.trans hrec') (by simp)
  | some rec =>
    refine h.note hi { hsteady with waits := ?_, woken := ?_ } rfl
    · intro e' e'' he' he''
      obtain rfl : e = e' := Option.some.inj he'
      obtain rfl : rec.event = e'' := Option.some.inj he''
      refine hfound.imp_right ?_
      rintro ⟨rec', hrec', rfl⟩
      rw [Option.some.inj (hrec.symm.trans hrec')]
    · intro hwoken
      cases hwoken

/-- A caller wakes up, because the event is set or the time is over. -/
theorem inv_woken (h : Inv s ns) {b : ℚ} {e event : ℕ} {woken : Bool}
    (hi : ns[i]? = some (key, { DeduperNote.ready b with found := some e, waits := some event }))
    (hwoken : woken → (s.setAt event).isSome) :
    Inv s (ns.set i (key,
      { DeduperNote.ready b with found := some e, waits := some event, woken })) := by
  refine h.note hi { h.steady i key _ hi with woken := ?_ } rfl
  intro hset e' he'
  obtain rfl : event = e' := Option.some.inj he'
  exact Option.isSome_iff_exists.mp (hwoken hset)

/-- A caller reads a record. -/
theorem inv_read (h : Inv s ns) {b : ℚ} {e e' : ℕ}
    (hi : ns[i]? = some (key,
      { DeduperNote.ready b with found := some e, waits := some e', woken := true })) :
    Inv s (ns.set i (key, noted
      { DeduperNote.ready b with found := some e, waits := some e', woken := true }
      (.read key) (s.pending key))) := by
  have hsteady := h.steady i key _ hi
  obtain ⟨-, hfound⟩ := hsteady.found e rfl
  cases hrec : s.pending key with
  | none =>
    refine h.note hi { hsteady with missed := ?_ } rfl
    intro _ e'' he''
    obtain rfl : e = e'' := Option.some.inj he''
    rcases hfound with hpurged | ⟨rec, hrec', -⟩
    · exact hpurged
    · exact absurd (hrec.symm.trans hrec') (by simp)
  | some rec =>
    refine h.note hi { hsteady with record := ?_ } rfl
    intro rec' e'' hread he''
    obtain rfl : rec = rec' := Option.some.inj hread
    obtain rfl : e = e'' := Option.some.inj he''
    rcases hfound with hpurged | ⟨rec', hrec', hevent⟩
    · exact .inl hpurged
    obtain rfl : rec = rec' := Option.some.inj (hrec.symm.trans hrec')
    rcases hsteady.waits e e' rfl rfl with hpurged | rfl
    · exact .inl hpurged
    · -- the record that was found has an event that is set
      obtain ⟨t, ht⟩ := hsteady.woken rfl e' rfl
      rw [← hevent] at ht
      obtain ⟨-, -, o, ho, hanswer⟩ := h.done key rec t hrec ht
      obtain ⟨b', hb', hlate⟩ := hsteady.swept rfl
      exact .inr ⟨_, ho, rfl, hanswer, t, b', ht, hb', hlate key rec t hrec ht⟩

/-! ## Coming and going -/

/-- Time passes. -/
theorem inv_tick (h : Inv s ns) (now : ℚ) : Inv { s with now := max s.now now } ns := by
  have hle : s.now ≤ max s.now now := le_max_left _ _
  have hgrows : Grows s { s with now := max s.now now } := { Grows.refl s with now := hle }
  refine ⟨h.clock.trans hle, h.events, h.done, ?_, ?_, h.apart⟩
  · intro i k m hi
    exact (h.steady i k m hi).grows hgrows
  · intro i k m hi e he
    obtain ⟨hunset, hran, rec, hrec, hrece, hdone⟩ := h.leads i k m hi e he
    refine ⟨hunset, hran, rec, hrec, hrece, fun hf => ⟨(hdone hf).1.trans ?_, (hdone hf).2⟩⟩
    exact add_le_add_left hle _

/-- A caller comes. -/
theorem inv_start (h : Inv s ns) (key : K) : Inv s (ns ++ [(key, ({} : DeduperNote R E))]) := by
  have hnew : ∀ (i : ℕ) (k : K) (m : DeduperNote R E),
      (ns ++ [(key, ({} : DeduperNote R E))])[i]? = some (k, m) → ns[i]? = some (k, m) ∨ m = {} := by
    intro i k m hi
    by_cases hlt : i < ns.length
    · rw [List.getElem?_append_left hlt] at hi
      exact .inl hi
    · rw [List.getElem?_append_right (not_lt.mp hlt)] at hi
      have hm := List.mem_singleton.mp (List.mem_of_getElem? hi)
      exact .inr (Prod.mk.inj hm).2
  refine { h with steady := ?_, leads := ?_, apart := ?_ }
  · intro i k m hi
    rcases hnew i k m hi with hold | rfl
    · exact h.steady i k m hold
    · refine ⟨?_, ?_, ?_, ?_, ?_, ?_, ?_⟩ <;> simp
  · intro i k m hi e he
    rcases hnew i k m hi with hold | rfl
    · exact h.leads i k m hold e he
    · cases he
  · intro i j k k' m m' e hi hj he he'
    rcases hnew i k m hi with hold | rfl
    · rcases hnew j k' m' hj with hold' | rfl
      · exact h.apart i j k k' m m' e hold hold' he he'
      · cases he'
    · cases he

/-! ## Runs -/

variable [DecidableEq K]

/-- A request is registered. -/
theorem inv_begin (h : Inv s ns) (hi : ns[i]? = some (key, l)) (hfree : s.pending key = none)
    (hran : l.outcome = none) (hfinished : l.finished = false) :
    Inv (s.begin key) (ns.set i (key, { l with leads := some s.events.length })) := by
  have hsetAt : ∀ e, (s.begin key).setAt e = s.setAt e := by
    intro e
    change ((s.events ++ [DeduperEvent.mk key none])[e]?).bind _ = _
    by_cases he : e < s.events.length
    · rw [List.getElem?_append_left he]
      rfl
    · rw [setAt_of_length_le (not_lt.mp he), List.getElem?_append_right (not_lt.mp he)]
      cases e - s.events.length <;> rfl
  have hpending : ∀ k, (s.begin key).pending k =
      if k = key then some ⟨s.events.length, none, none, 0⟩ else s.pending k :=
    Function.update_apply s.pending key _
  have hold : ∀ k rec, s.pending k = some rec → (s.begin key).pending k = some rec := by
    intro k rec hrec
    have hne : k ≠ key := by
      intro heq
      subst heq
      exact absurd (hfree.symm.trans hrec) (by simp)
    rw [hpending, if_neg hne]
    exact hrec
  have hgrows : Grows s (s.begin key) := by
    refine ⟨le_rfl, fun x hx => hx, fun e he => he, fun e t ht => ?_, fun k rec hrec => ?_, ?_⟩
    · rw [hsetAt]
      exact ht
    · exact .inr ⟨rec, hold k rec hrec, rfl⟩
    · intro k rec t hrec ht
      rw [hsetAt] at ht
      rw [hpending] at hrec
      split_ifs at hrec with hk
      · obtain rfl := Option.some.inj hrec
        exact absurd ((setAt_of_length_le le_rfl).symm.trans ht) (by simp)
      · exact .inl ⟨rec, hrec, ht⟩
  have hsteady := (h.steady i key l hi).grows hgrows
  refine h.change hi hgrows ?_ ?_ ?_ { hsteady with } ?_ ?_
  · intro k rec hrec
    rw [hpending] at hrec
    split_ifs at hrec with hk
    · obtain rfl := Option.some.inj hrec
      subst hk
      refine ⟨{ key := k }, ?_, rfl⟩
      change (s.events ++ [_])[s.events.length]? = _
      simp
    · obtain ⟨ev, hev, hkey⟩ := h.events k rec hrec
      refine ⟨ev, ?_, hkey⟩
      change (s.events ++ [_])[rec.event]? = _
      rw [List.getElem?_append_left (List.getElem?_eq_some_iff.mp hev).1]
      exact hev
  · intro k rec t hrec ht
    rw [hsetAt] at ht
    rw [hpending] at hrec
    split_ifs at hrec with hk
    · obtain rfl := Option.some.inj hrec
      exact absurd ((setAt_of_length_le le_rfl).symm.trans ht) (by simp)
    · exact h.done k rec t hrec ht
  · intro j k m _ hj e he
    obtain ⟨hunset, hran, rec, hrec, hrece, hdone⟩ := h.leads j k m hj e he
    exact ⟨(hsetAt e).trans hunset, hran, rec, hold k rec hrec, hrece, hdone⟩
  · intro e he
    obtain rfl : s.events.length = e := Option.some.inj he
    refine ⟨(hsetAt _).trans (setAt_of_length_le le_rfl), fun o ho => ?_, _,
      (hpending key).trans (if_pos rfl), rfl, fun hf => ?_⟩
    · exact absurd (hran.symm.trans ho) (by simp)
    · exact absurd (hfinished.symm.trans hf) (by simp)
  · intro e he
    obtain rfl : s.events.length = e := Option.some.inj he
    refine .inr fun j k m hj hm => ?_
    obtain ⟨-, -, rec, hrec, hrece, -⟩ := h.leads j k m hj _ hm
    obtain ⟨ev, hev, -⟩ := h.events k rec hrec
    rw [hrece, List.getElem?_eq_none le_rfl] at hev
    cases hev

/-- The result of a request is recorded. -/
theorem inv_finish (h : Inv s ns) (hi : ns[i]? = some (key, l)) {event : ℕ}
    (hevent : l.leads = some event) {outcome : Except E (Option R)}
    (houtcome : l.outcome = some outcome) :
    Inv (s.conclude key (s.ended event outcome))
      (ns.set i (key, { l with finished := true })) := by
  obtain ⟨hunset, hran, rec₀, hrec₀, hevent₀, -⟩ := h.leads i key l hi event hevent
  have hended : (s.ended event outcome).event = event := by cases outcome <;> rfl
  have hexpiry : (s.ended event outcome).expiry = s.now + resultTtl := by cases outcome <;> rfl
  have hcomplete : Complete s key (s.ended event outcome) := by
    refine ⟨?_, outcome, ?_, by cases outcome <;> rfl⟩
    · rw [hexpiry]
      have hclock := h.clock
      norm_num [resultTtl]
      linarith
    · rw [hended]
      exact hran outcome houtcome
  have hpending : ∀ k, (s.conclude key (s.ended event outcome)).pending k =
      if k = key then some (s.ended event outcome) else s.pending k :=
    Function.update_apply s.pending key _
  have hgrows : Grows s (s.conclude key (s.ended event outcome)) := by
    refine ⟨le_rfl, fun x hx => hx, fun e he => he, fun e t ht => ht, fun k rec hrec => ?_, ?_⟩
    · right
      by_cases hk : k = key
      · subst hk
        obtain rfl : rec₀ = rec := Option.some.inj (hrec₀.symm.trans hrec)
        exact ⟨_, (hpending k).trans (if_pos rfl), hended.trans hevent₀.symm⟩
      · exact ⟨rec, (hpending k).trans ((if_neg hk).trans hrec), rfl⟩
    · intro k rec t hrec ht
      have hrec' := (hpending k).symm.trans hrec
      split_ifs at hrec' with hk
      · obtain rfl := Option.some.inj hrec'
        have hset : s.setAt (s.ended event outcome).event = some t := ht
        rw [hended] at hset
        exact absurd (hunset.symm.trans hset) (by simp)
      · exact .inl ⟨rec, hrec', ht⟩
  have hsteady := (h.steady i key l hi).grows hgrows
  refine h.change hi hgrows ?_ ?_ ?_ { hsteady with } ?_ fun e he => .inl he
  · intro k rec hrec
    have hrec' := (hpending k).symm.trans hrec
    split_ifs at hrec' with hk
    · obtain rfl := Option.some.inj hrec'
      obtain ⟨ev, hev, hkey⟩ := h.events key rec₀ hrec₀
      rw [hevent₀, ← hended] at hev
      exact ⟨ev, hev, hkey.trans hk.symm⟩
    · exact h.events k rec hrec'
  · intro k rec t hrec ht
    have hrec' := (hpending k).symm.trans hrec
    split_ifs at hrec' with hk
    · obtain rfl := Option.some.inj hrec'
      have hset : s.setAt (s.ended event outcome).event = some t := ht
      rw [hended] at hset
      exact absurd (hunset.symm.trans hset) (by simp)
    · exact h.done k rec t hrec' ht
  · intro j k m hji hj e he
    obtain ⟨hunset', hran', rec, hrec, hrece, hdone⟩ := h.leads j k m hj e he
    have hk : k ≠ key := by
      intro heq
      subst heq
      obtain rfl : rec₀ = rec := Option.some.inj (hrec₀.symm.trans hrec)
      obtain rfl : e = event := hrece.symm.trans hevent₀
      exact hji (h.apart j i k k m l e hj hi he hevent)
    exact ⟨hunset', hran', rec, (hpending k).trans ((if_neg hk).trans hrec), hrece, hdone⟩
  · intro e he
    obtain rfl : event = e := Option.some.inj (hevent.symm.trans he)
    exact ⟨hunset, hran, _, (hpending key).trans (if_pos rfl), hended, fun _ =>
      ⟨hexpiry.le, hcomplete⟩⟩

/-- **One step** of a caller keeps the invariant. -/
theorem inv_call (h : Inv s ns) (hi : ns[i]? = some (key, l)) {c : DeduperCall K R E}
    (hallowed : Allowed key l c) {w : DeduperTurn R E} {r : DeduperCall.Reply K R E c}
    (hserve : s.serve w c = some (s', r)) : Inv s' (ns.set i (key, noted l c r)) := by
  cases c with
  | clock =>
    obtain rfl := hallowed
    obtain ⟨rfl, rfl⟩ := Prod.mk.inj (Option.some.inj hserve)
    refine h.note hi { h.steady i key _ hi with began := ?_, swept := ?_, record := ?_ } rfl
    · intro b hb
      exact (Option.some.inj hb).ge
    · intro hswept
      cases hswept
    · intro _ _ hread
      cases hread
  | purge now =>
    obtain rfl := hallowed
    obtain ⟨rfl, rfl⟩ := Prod.mk.inj (Option.some.inj hserve)
    exact inv_purge h hi rfl rfl rfl
  | register k =>
    obtain ⟨rfl, b, rfl⟩ := hallowed
    cases hrec : s.pending k with
    | none =>
      simp only [DeduperTable.serve, hrec] at hserve
      obtain ⟨rfl, rfl⟩ := Prod.mk.inj (Option.some.inj hserve)
      exact inv_begin h hi hrec rfl rfl
    | some rec =>
      simp only [DeduperTable.serve, hrec] at hserve
      obtain ⟨rfl, rfl⟩ := Prod.mk.inj (Option.some.inj hserve)
      exact inv_found h hi hrec
  | run k event =>
    obtain ⟨rfl, b, rfl⟩ := hallowed
    obtain ⟨rfl, rfl⟩ := Prod.mk.inj (Option.some.inj hserve)
    exact inv_execute h hi rfl rfl _
  | finish k event outcome =>
    obtain ⟨rfl, b, rfl⟩ := hallowed
    obtain ⟨rfl, rfl⟩ := Prod.mk.inj (Option.some.inj hserve)
    exact inv_finish h hi rfl rfl
  | set event =>
    obtain ⟨b, o, rfl⟩ := hallowed
    obtain ⟨rfl, rfl⟩ := Prod.mk.inj (Option.some.inj hserve)
    exact inv_setEvent h hi rfl rfl
  | lookup k =>
    obtain ⟨rfl, b, e, rfl⟩ := hallowed
    obtain ⟨rfl, rfl⟩ := Prod.mk.inj (Option.some.inj hserve)
    exact inv_looked h hi
  | wait event =>
    obtain ⟨b, e, rfl⟩ := hallowed
    rw [DeduperTable.serve] at hserve
    split_ifs at hserve with hset htimeout
    · obtain ⟨rfl, rfl⟩ := Prod.mk.inj (Option.some.inj hserve)
      exact inv_woken h hi fun _ => hset
    · obtain ⟨rfl, rfl⟩ := Prod.mk.inj (Option.some.inj hserve)
      exact inv_woken h hi fun hwoken => by cases hwoken
  | read k =>
    obtain ⟨rfl, b, e, e', rfl⟩ := hallowed
    obtain ⟨rfl, rfl⟩ := Prod.mk.inj (Option.some.inj hserve)
    exact inv_read h hi

/-- The callers, and the deduper that they share. -/
abbrev Callers (K R E : Type) := Pool (DeduperTable K R E) K (DeduperNote R E) (DeduperCall K R E)
  (DeduperCall.Reply K R E) (DeduperResult R E)

/-- What a caller that found a request pending may get: the result of an execution for its key that
ended after its call began or was still kept then, or a timeout. -/
def Answered (p : Callers K R E) : Prop :=
  ∀ w ∈ p.workers, ∀ r, w.rest = .ret r → ∀ e ∈ w.note.found, p.store.purged e = false →
    r = .timeout ∨ ∃ x ∈ p.store.executed, x.key = w.op ∧ r = .of x.outcome ∧
      ∃ t ∈ p.store.setAt x.event, ∃ b ∈ w.note.began, b ≤ t + resultTtl

/-- **Sharing**: in every run, a caller that waits gets the result of an execution for its key that
ended after its call began or was still kept then, or it times out, unless its record has been
purged. -/
theorem answered (moves : List (PoolMove K (DeduperTurn R E) ℚ)) (n : ℕ) :
    Answered (Run.stateAt (Pool.step shop) (⟨{}, []⟩ : Callers K R E) moves n) := by
  have hempty : Inv ({} : DeduperTable K R E) [] := by
    refine ⟨le_rfl, ?_, ?_, ?_, ?_, ?_⟩ <;> simp
  have hrun : (∀ w ∈ (Run.stateAt (Pool.step shop) (⟨{}, []⟩ : Callers K R E) moves n).workers,
      Pool.Obeying shop Allowed (fun _ => Ended) w) ∧
      Inv (Run.stateAt (Pool.step shop) (⟨{}, []⟩ : Callers K R E) moves n).store
        (Run.stateAt (Pool.step shop) (⟨{}, []⟩ : Callers K R E) moves n).notes := by
    refine Pool.invariant_of_forall obeys_execute ?_ ?_ ?_ ?_ hempty (moves.take n)
    · intro s ns key h
      exact inv_start h key
    · intro s ns w i key l c s' r h hi hallowed hserve
      exact inv_call h hi hallowed hserve
    · intro s ns now h
      exact inv_tick h now
    · intro w hw
      cases hw
  obtain ⟨hobeying, hinv⟩ := hrun
  intro w hw r hr e he hkept
  obtain ⟨i, hi⟩ := List.mem_iff_getElem?.mp hw
  have hended : Ended w.note r := by
    have hobeys := hobeying w hw
    rw [Pool.Obeying, hr] at hobeys
    exact hobeys
  have hsteady := hinv.steady i w.op w.note (by simp [Pool.notes, hi])
  have hkept' : ¬(Run.stateAt (Pool.step shop) (⟨{}, []⟩ : Callers K R E) moves n).store.purged e := by
    simpa using hkept
  rcases hended (by rw [he]; rfl) with rfl | ⟨-, hmissed⟩ | ⟨rec, hrec, rfl⟩
  · exact .inl rfl
  · exact absurd (hsteady.missed hmissed e he) hkept'
  · right
    rcases hsteady.record rec e hrec he with hpurged | ⟨x, hx, hkey, hanswer, t, b, ht, hb, hlate⟩
    · exact absurd hpurged hkept'
    · exact ⟨x, hx, hkey, hanswer, t, ht, b, hb, hlate⟩

/-- The claim of an execution that overlaps the wait: it has not ended before the call began. -/
def Overlapping (p : Callers K R E) : Prop :=
  ∀ w ∈ p.workers, ∀ r, w.rest = .ret r → w.note.found.isSome →
    r = .timeout ∨ ∃ x ∈ p.store.executed, x.key = w.op ∧ r = .of x.outcome ∧
      ∃ t ∈ p.store.setAt x.event, ∃ b ∈ w.note.began, b ≤ t

/-- A second call comes when the first has ended. -/
def lateCall : List (PoolMove ℕ (DeduperTurn ℕ ℕ) ℚ) :=
  .start 1 :: List.replicate 6 (.advance 0 { outcome := .ok (some 7) }) ++
    .outside 1 :: .start 1 :: List.replicate 6 (.advance 1 {})

/-- It gets the result that is still kept. -/
theorem lateCall_kept : ¬∀ (moves : List (PoolMove ℕ (DeduperTurn ℕ ℕ) ℚ)) (n : ℕ),
    Overlapping (Run.stateAt (Pool.step shop) (⟨{}, []⟩ : Callers ℕ ℕ ℕ) moves n) := by
  intro h
  have hworker : (Run.stateAt (Pool.step shop) (⟨{}, []⟩ : Callers ℕ ℕ ℕ) lateCall 15).workers[1]? =
      some ⟨1, { DeduperNote.ready 1 with
        found := some 0, waits := some 0, woken := true, record := some ⟨0, some 7, none, 5⟩ },
        .ret (.value (some 7))⟩ := by
    with_unfolding_all rfl
  have hset : (Run.stateAt (Pool.step shop) (⟨{}, []⟩ : Callers ℕ ℕ ℕ) lateCall 15).store.setAt 0 =
      some 0 := by decide +kernel
  have hexecuted : (Run.stateAt (Pool.step shop) (⟨{}, []⟩ : Callers ℕ ℕ ℕ)
      lateCall 15).store.executed = [⟨1, 0, .ok (some 7)⟩] := by
    with_unfolding_all rfl
  rcases h lateCall 15 _ (List.mem_of_getElem? hworker) _ rfl rfl with hvalue | hx
  · cases hvalue
  · obtain ⟨x, hx, -, -, t, ht, b, hb, hle⟩ := hx
    rw [hexecuted, List.mem_singleton] at hx
    subst hx
    obtain rfl := Option.some.inj (hset.symm.trans ht)
    obtain rfl := Option.some.inj hb
    exact absurd hle (by norm_num)

end

end Deduper

end WolfNas
