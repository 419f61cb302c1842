import WolfNas.Lib.Text
import Mathlib.Data.Rat.Defs
import WolfNas.Lib.Dict
import WolfNas.Lib.Numerals
import WolfNas.Limit.SiteSpacing

/-!
# Tasks, and tasks as hashes

A task is a piece of work for a queue's workers: what is to be done, how often it was tried, who
works on it and until when, and where it stands.

The state of a task is kept in a hash of texts: numbers as they are written, times with six places,
JSON for the payload and the result, and an empty text for a result that there is not.  What is read
from the hash is the task again, but its times have six places only, and it may be tried once at
least.

## Main definitions

* `TaskStatus` — where a task stands; `TaskStatus.terminal` — it is over.
* `QueueTask J` — a task whose payload and result are JSON values `J`.
* `EnqueueArgs J` — what a task is made of.
* `JsonTools` — `JsonUtils`, of any values.
* `TaskRecord` — a task with all that its hash keeps; times are floating-point numbers.
* `TaskRecord.toHash`, `TaskRecord.fromHash` — writing and reading the hash.
* `TaskRecord.settled`, `TaskRecord.Exact` — the task with six places; it has no more of them.

## Main results

* `floatAt_sixPlaces` — the time that is read is the one that is written, with six places.
* `TaskRecord.reads_settled` — the task that is read is the one that is written, settled.
* `TaskRecord.moment_lost` — a time between two places.
-/

namespace WolfNas

open Text

/-- `TaskStatus`. -/
inductive TaskStatus
  | queued | running | succeeded | failed | cancelled | dead
  deriving DecidableEq, Repr

/-- `TaskStatus.terminal`. -/
def TaskStatus.terminal : TaskStatus → Bool
  | .queued | .running => false
  | .succeeded | .failed | .cancelled | .dead => true

/-- `Task`; times are seconds. -/
structure QueueTask (J : Type) where
  id : Text
  queueName : Text
  taskType : Text
  payload : J
  dedupKey : Text := []
  priority : ℤ := 0
  attempts : ℕ := 0
  maxAttempts : ℕ := 5
  status : TaskStatus := .queued
  streamId : Text := []
  createdAt : ℚ
  updatedAt : ℚ
  leaseOwner : Text := []
  leaseUntil : ℚ := 0
  lastError : Text := []
  nextRetryAt : ℚ := 0
  result : Option J := none
  deriving DecidableEq

/-- `Task.create`. -/
def QueueTask.create {J : Type} (queueName taskType : Text) (payload : J) (dedupKey : Text)
    (priority : ℤ) (maxAttempts : ℤ) (id : Text) (now : ℚ) : QueueTask J :=
  { id, queueName, taskType, payload, dedupKey, priority
    maxAttempts := (max 1 maxAttempts).toNat
    createdAt := now
    updatedAt := now }

/-- The arguments of `enqueue`, with the id that the task gets. -/
structure EnqueueArgs (J : Type) where
  taskType : Text
  payload : J
  dedupKey : Text := []
  priority : Option ℤ := none
  maxAttempts : Option ℤ := none
  id : Text

/-! ## Times -/

/-- `float(text)`; none where it raises. -/
def floatAt (t : Text) : Option Binary64 :=
  (parseFloat t).map fun
    | .value x => .ofRat x
    | .infinite => .infinite (signOf t.strip).1
    | .nan => .nan

/-- `f"{x:.6f}"`. -/
def sixPlaces : Binary64 → Text
  | .finite x => fixed 6 x.val
  | .infinite negative => of (if negative then "-inf" else "inf")
  | .nan => of "nan"

theorem toLower_of_isDigit {c : Char} (h : c.isDigit = true) : c.toLower = c := by
  have h57 : c.val.toNat ≤ 57 := by
    simp only [Char.isDigit, Bool.and_eq_true, decide_eq_true_eq] at h
    exact h.2
  delta Char.toLower
  rw [dif_neg]
  intro hup
  have hlo : 65 ≤ c.val.toNat := hup.1
  omega

section Places

variable {places n : ℕ} {c : Char}

theorem mem_pointed (h : c ∈ pointed places n) : c.isDigit = true ∨ c = '.' := by
  rcases List.mem_append.mp h with h | h
  · exact .inl (isDigit_of_mem_ofNat h)
  · split_ifs at h
    · cases h
    · rcases List.mem_cons.mp h with rfl | h
      · exact .inr rfl
      · exact .inl (isDigit_of_mem_padTo h)

/-- Nothing of a number is blank, or an upper-case letter. -/
theorem strip_lower_of_pointed {s : Text} (h : ∀ c ∈ s, c.isDigit = true ∨ c = '.' ∨ c = '-') :
    lower s.strip = s := by
  have hstrip : s.strip = s := by
    refine strip_of_trimmed (trimmed_of_forall ?_)
    intro c hc
    rcases h c hc with hdigit | rfl | rfl
    · exact isSpace_of_isDigit hdigit
    · decide
    · decide
  rw [hstrip, lower]
  conv_rhs => rw [← List.map_id s]
  refine List.map_congr_left ?_
  intro c hc
  rcases h c hc with hdigit | rfl | rfl
  · exact toLower_of_isDigit hdigit
  · decide
  · decide

theorem floatPart_of_digits {s : Text} (h : ∀ c ∈ s, c.isDigit = true) (hne : s ≠ []) :
    floatPart s = some (toNat s, s.length) := by
  rw [floatPart, if_neg hne, parseDigits_eq h hne, List.filter_eq_self.mpr h]
  rfl

theorem length_padTo (hplaces : 0 < places) (hn : n < 10 ^ places) :
    (padTo places n).length = places := by
  refine le_antisymm ((length_padTo_le_iff hplaces le_rfl).mpr hn) ?_
  rw [padTo, List.length_append, List.length_replicate]
  omega

/-- The digits in front of the point, and the point with those behind it. -/
theorem split_pointed (hplaces : 0 < places) :
    (pointed places n).takeWhile (· != '.') = ofNat (n / 10 ^ places) ∧
      (pointed places n).dropWhile (· != '.') = '.' :: padTo places (n % 10 ^ places) := by
  have hdigits : ∀ c ∈ ofNat (n / 10 ^ places), (c != '.') = true := by
    intro c hc
    have hdigit := isDigit_of_mem_ofNat hc
    rw [bne_iff_ne]
    rintro rfl
    cases hdigit
  rw [pointed, if_neg hplaces.ne', List.takeWhile_append_of_pos hdigits,
    List.dropWhile_append_of_pos hdigits]
  simp

/-- A number with a point is read from its sign and its digits. -/
theorem parseFloat_of_sign {s : Text} {negative : Bool} (hplaces : 0 < places)
    (hs : lower s.strip = s) (hsign : signOf s = (negative, pointed places n)) :
    parseFloat s = some (.value (if negative then -(n / 10 ^ places) else n / 10 ^ places)) := by
  have hpoint : '.' ∈ pointed places n := by simp [pointed, hplaces.ne']
  have hword : ∀ w : Text, '.' ∉ w → pointed places n ≠ w := by
    rintro w hw rfl
    exact hw hpoint
  have he : ∀ c ∈ pointed places n, (c != 'e') = true := by
    intro c hc
    rw [bne_iff_ne]
    rintro rfl
    rcases mem_pointed hc with h | h
    · cases h
    · cases h
  have hnot : 'e' ∉ pointed places n := fun h => by simpa using he 'e' h
  obtain ⟨hfront, hbehind⟩ := split_pointed (n := n) hplaces
  have hmod : n % 10 ^ places < 10 ^ places := Nat.mod_lt _ (by positivity)
  have hwhole := floatPart_of_digits (fun _ h => isDigit_of_mem_ofNat h)
    (ofNat_ne_nil (n / 10 ^ places))
  have hfraction := floatPart_of_digits (fun _ h => isDigit_of_mem_padTo h)
    (padTo_ne_nil places (n % 10 ^ places))
  rw [toNat_ofNat] at hwhole
  rw [toNat_padTo, length_padTo hplaces hmod] at hfraction
  have hcount : (ofNat (n / 10 ^ places)).length + places ≠ 0 := by omega
  have hinf : ¬(pointed places n = of "inf" ∨ pointed places n = of "infinity") := by
    rintro (h | h)
    · exact hword _ (by decide) h
    · exact hword _ (by decide) h
  have hnan : pointed places n ≠ of "nan" := hword _ (by decide)
  have hmantissa : (pointed places n).takeWhile (· != 'e') = pointed places n :=
    List.takeWhile_eq_self_iff.mpr he
  have hexponent : signOf ((pointed places n).dropWhile (· != 'e')).tail = (false, []) := by
    rw [List.dropWhile_eq_nil_iff.mpr he]
    rfl
  unfold parseFloat
  rw [hs, hsign]
  dsimp only
  rw [if_neg hinf, if_neg hnan, hexponent, hmantissa, hfront, hbehind, List.tail_cons, hwhole,
    hfraction, if_neg hnot]
  simp only [hcount, if_false, Bool.false_eq_true, pow_zero, mul_one, div_add_mod_div]

/-- **A number with places** is read as it was rounded. -/
theorem parseFloat_fixed (hplaces : 0 < places) (x : ℚ) :
    parseFloat (fixed places x) = some (.value (roundTo places x)) := by
  set n := (roundEven (|x| * 10 ^ places)).toNat with hn
  have hround : ((roundEven (|x| * 10 ^ places) : ℤ) : ℚ) = n := by
    have hnonneg : 0 ≤ roundEven (|x| * 10 ^ places) := roundEven_nonneg (by positivity)
    rw [hn]
    exact_mod_cast (Int.toNat_of_nonneg hnonneg).symm
  have hchars : ∀ c ∈ fixed places x, c.isDigit = true ∨ c = '.' ∨ c = '-' := by
    intro c hc
    unfold fixed at hc
    dsimp only at hc
    split_ifs at hc
    · rcases List.mem_cons.mp hc with rfl | hc
      · exact .inr (.inr rfl)
      · exact (mem_pointed hc).imp id .inl
    · exact (mem_pointed hc).imp id .inl
  have hsign : signOf (fixed places x) = (decide (x < 0), pointed places n) := by
    unfold fixed
    dsimp only
    split_ifs with hneg
    · simp [signOf, hneg, hn]
    · obtain ⟨c, s, hs, hc⟩ := head_ofNat (n / 10 ^ places)
      have hhead : pointed places n = c :: (s ++ '.' :: padTo places (n % 10 ^ places)) := by
        rw [pointed, hs, if_neg hplaces.ne', List.cons_append]
      rw [← hn, hhead]
      unfold signOf
      split
      · rename_i heq
        rw [(List.cons.inj heq).1] at hc
        cases hc
      · rename_i heq
        rw [(List.cons.inj heq).1] at hc
        cases hc
      · simp [hneg]
  rw [parseFloat_of_sign hplaces (strip_lower_of_pointed hchars) hsign, roundTo, hround]
  simp only [decide_eq_true_eq]

end Places

/-- **The time** that is read is the one that was written, with six places. -/
theorem floatAt_sixPlaces (x : Binary64) : floatAt (sixPlaces x) = some (x.toPlaces 6) := by
  cases x with
  | finite x =>
    rw [sixPlaces, floatAt, parseFloat_fixed (by decide)]
    rfl
  | infinite negative =>
    cases negative with
    | false => decide +kernel
    | true => decide +kernel
  | nan => decide +kernel

/-! ## Hashes -/

/-- `JsonUtils`, with values of any kind; what raises has no result. -/
structure JsonTools (J : Type) where
  toJsonable : J → J
  dumps : J → Option Text
  loads : Text → Option J
  isDict : J → Bool
  emptyDict : J
  /-- An empty text is no JSON. -/
  loads_nil : loads [] = none

/-- The value is a dictionary, which survives JSON. -/
def JsonTools.Survives {J : Type} (json : JsonTools J) (x : J) : Prop :=
  json.isDict x = true ∧ ∃ s, json.dumps (json.toJsonable x) = some s ∧ json.loads s = some x

/-- `Task`, with what its hash keeps. -/
structure TaskRecord (J : Type) where
  id : Text
  queueName : Text
  taskType : Text
  payload : J
  dedupKey : Text := []
  priority : ℤ := 0
  attempts : ℤ := 0
  maxAttempts : ℤ := 5
  status : TaskStatus := .queued
  streamId : Text := []
  createdAt : Binary64
  updatedAt : Binary64
  leaseOwner : Text := []
  leaseUntil : Binary64 := .ofRat 0
  lastError : Text := []
  nextRetryAt : Binary64 := .ofRat 0
  result : Option J := none
  deriving DecidableEq

/-- `TaskStatus.value`. -/
def TaskStatus.value : TaskStatus → Text
  | .queued => of "queued"
  | .running => of "running"
  | .succeeded => of "succeeded"
  | .failed => of "failed"
  | .cancelled => of "cancelled"
  | .dead => of "dead"

/-- The fields of a hash. -/
abbrev HashFields := Dict Text Text

namespace HashFields

variable (fields : HashFields) (key : Text)

/-- `_as_text`. -/
def asText : Text := (fields.get key).getD []

/-- `_as_int`. -/
def asInt (default : ℤ) : ℤ := ((fields.get key).bind parseInt).getD default

/-- `_as_float`. -/
def asFloat (default : Binary64) : Binary64 := ((fields.get key).bind floatAt).getD default

/-- `_as_status`. -/
def asStatus : TaskStatus :=
  ([.queued, .running, .succeeded, .failed, .cancelled, .dead].find? fun status =>
    TaskStatus.value status = asText fields key).getD .queued

end HashFields

namespace TaskRecord

variable {J : Type} (json : JsonTools J)

/-- The entries of `to_stream`. -/
def streamEntries (t : TaskRecord J) (payload : Text) : List (Text × Text) :=
  [(of "task_id", t.id), (of "queue_name", t.queueName), (of "task_type", t.taskType),
    (of "payload", payload), (of "dedup_key", t.dedupKey), (of "priority", ofInt t.priority),
    (of "attempts", ofInt t.attempts), (of "max_attempts", ofInt t.maxAttempts),
    (of "created_at", sixPlaces t.createdAt)]

/-- The entries that `to_hash` adds. -/
def hashEntries (t : TaskRecord J) (result : Text) : List (Text × Text) :=
  [(of "status", t.status.value), (of "stream_id", t.streamId),
    (of "updated_at", sixPlaces t.updatedAt), (of "lease_owner", t.leaseOwner),
    (of "lease_until", sixPlaces t.leaseUntil), (of "last_error", t.lastError),
    (of "next_retry_at", sixPlaces t.nextRetryAt), (of "result", result)]

/-- `to_stream`. -/
def toStream (t : TaskRecord J) : Option HashFields :=
  (json.dumps (json.toJsonable t.payload)).map fun payload =>
    Dict.empty.update (t.streamEntries payload)

/-- `to_hash`. -/
def toHash (t : TaskRecord J) : Option HashFields := do
  let data ← t.toStream json
  let result ← match t.result with
    | some result => json.dumps (json.toJsonable result)
    | none => some []
  return data.update (t.hashEntries result)

/-- The payload of `from_stream`. -/
def payloadOf (fields : HashFields) : J :=
  match fields.get (of "payload") with
  | none | some [] => json.emptyDict
  | some raw =>
    match json.loads raw with
    | none => json.emptyDict
    | some parsed => if json.isDict parsed then parsed else json.emptyDict

/-- `from_stream`, at a time. -/
def fromStream (now : Binary64) (fields : HashFields) (streamId : Text) : TaskRecord J where
  id := fields.asText (of "task_id")
  queueName := fields.asText (of "queue_name")
  taskType := fields.asText (of "task_type")
  payload := payloadOf json fields
  dedupKey := fields.asText (of "dedup_key")
  priority := fields.asInt (of "priority") 0
  attempts := fields.asInt (of "attempts") 0
  maxAttempts := max 1 (fields.asInt (of "max_attempts") 5)
  streamId := streamId
  createdAt := fields.asFloat (of "created_at") now
  updatedAt := now

/-- The result of `from_hash`; none where the text is no JSON. -/
def resultOf (fields : HashFields) : Option (Option J) :=
  match fields.get (of "result") with
  | none | some [] => some none
  | some raw => (json.loads raw).map fun parsed => if json.isDict parsed then some parsed else none

/-- `from_hash`, at a time. -/
def fromHash (now : Binary64) (fields : HashFields) : Option (TaskRecord J) :=
  let task := fromStream json now fields (fields.asText (of "stream_id"))
  (resultOf json fields).map fun result =>
    { task with
      status := fields.asStatus (of "status")
      updatedAt := fields.asFloat (of "updated_at") task.createdAt
      leaseOwner := fields.asText (of "lease_owner")
      leaseUntil := fields.asFloat (of "lease_until") (.ofRat 0)
      lastError := fields.asText (of "last_error")
      nextRetryAt := fields.asFloat (of "next_retry_at") (.ofRat 0)
      result }

/-- The task with six places, which may be tried once at least. -/
def settled (t : TaskRecord J) : TaskRecord J :=
  { t with
    maxAttempts := max 1 t.maxAttempts
    createdAt := t.createdAt.toPlaces 6
    updatedAt := t.updatedAt.toPlaces 6
    leaseUntil := t.leaseUntil.toPlaces 6
    nextRetryAt := t.nextRetryAt.toPlaces 6 }

/-! ## What is read -/

variable {json} {t : TaskRecord J} {fields : HashFields} {key payload result : Text}

/-- The entries are those of the hash. -/
def Holds (t : TaskRecord J) (payload result : Text) (fields : HashFields) : Prop :=
  (∀ e ∈ t.streamEntries payload, fields.get e.1 = some e.2) ∧
    ∀ e ∈ t.hashEntries result, fields.get e.1 = some e.2

/-- Every entry of a hash is read as it was written. -/
theorem holds_update (t : TaskRecord J) (payload result : Text) :
    t.Holds payload result
      ((Dict.empty.update (t.streamEntries payload)).update (t.hashEntries result)) := by
  have happend : (Dict.empty.update (t.streamEntries payload)).update (t.hashEntries result) =
      Dict.empty.update (t.streamEntries payload ++ t.hashEntries result) :=
    List.foldl_append.symm
  have hkeys : ((t.streamEntries payload ++ t.hashEntries result).map Prod.fst).Nodup := by
    simp only [streamEntries, hashEntries, List.cons_append, List.nil_append, List.map_cons,
      List.map_nil]
    decide +kernel
  rw [happend]
  constructor
  · intro e he
    exact Dict.get_update_of_mem hkeys (List.mem_append_left _ he)
  · intro e he
    exact Dict.get_update_of_mem hkeys (List.mem_append_right _ he)

theorem asText_of_get {s : Text} (h : fields.get key = some s) : fields.asText key = s := by
  rw [HashFields.asText, h, Option.getD_some]

theorem asInt_of_get {n : ℤ} (h : fields.get key = some (ofInt n)) (default : ℤ) :
    fields.asInt key default = n := by
  rw [HashFields.asInt, h, Option.bind_some, parseInt_ofInt, Option.getD_some]

theorem asFloat_of_get {x : Binary64} (h : fields.get key = some (sixPlaces x))
    (default : Binary64) : fields.asFloat key default = x.toPlaces 6 := by
  rw [HashFields.asFloat, h, Option.bind_some, floatAt_sixPlaces, Option.getD_some]

theorem asStatus_of_get {status : TaskStatus} (h : fields.get key = some status.value) :
    fields.asStatus key = status := by
  rw [HashFields.asStatus, asText_of_get h]
  cases status <;> decide +kernel

theorem payloadOf_of_get {p : J} (h : fields.get (of "payload") = some payload)
    (hdict : json.isDict p = true) (hloads : json.loads payload = some p) :
    payloadOf json fields = p := by
  cases payload with
  | nil =>
    rw [json.loads_nil] at hloads
    cases hloads
  | cons c s =>
    unfold payloadOf
    rw [h]
    simp only [hloads, hdict, if_true]

theorem resultOf_of_get {r : J} (h : fields.get (of "result") = some result)
    (hdict : json.isDict r = true) (hloads : json.loads result = some r) :
    resultOf json fields = some (some r) := by
  cases result with
  | nil =>
    rw [json.loads_nil] at hloads
    cases hloads
  | cons c s =>
    unfold resultOf
    rw [h]
    simp only [hloads, hdict, Option.map_some, if_true]

/-! ## The task -/

/-- The payload and the result survive JSON. -/
def Survives (json : JsonTools J) (t : TaskRecord J) : Prop :=
  json.Survives t.payload ∧ ∀ r ∈ t.result, json.Survives r

/-- What is written of a task that survives JSON. -/
theorem toHash_eq (h : t.Survives json) : ∃ payload result,
    t.toHash json = some
      ((Dict.empty.update (t.streamEntries payload)).update (t.hashEntries result)) ∧
    json.loads payload = some t.payload ∧
    match t.result with
    | some r => json.loads result = some r
    | none => result = [] := by
  obtain ⟨⟨-, payload, hdumps, hloads⟩, hresult⟩ := h
  cases hr : t.result with
  | none =>
    refine ⟨payload, [], ?_, hloads, rfl⟩
    simp [toHash, toStream, hdumps, hr]
  | some r =>
    obtain ⟨-, result, hdumps', hloads'⟩ := hresult r hr
    refine ⟨payload, result, ?_, hloads, hloads'⟩
    simp [toHash, toStream, hdumps, hr, hdumps']

/-- What a stream's entries are read as. -/
theorem fromStream_of_holds (h : t.Holds payload result fields)
    (hdict : json.isDict t.payload = true) (hloads : json.loads payload = some t.payload)
    (now : Binary64) (streamId : Text) :
    fromStream json now fields streamId =
      { id := t.id, queueName := t.queueName, taskType := t.taskType, payload := t.payload
        dedupKey := t.dedupKey, priority := t.priority, attempts := t.attempts
        maxAttempts := max 1 t.maxAttempts, streamId, createdAt := t.createdAt.toPlaces 6
        updatedAt := now } := by
  have hstream := h.1
  simp only [streamEntries, List.forall_mem_cons] at hstream
  obtain ⟨hid, hqueue, htype, hpayload, hdedup, hpriority, hattempts, hmax, hcreated, -⟩ := hstream
  rw [fromStream, asText_of_get hid, asText_of_get hqueue, asText_of_get htype,
    payloadOf_of_get hpayload hdict hloads, asText_of_get hdedup, asInt_of_get hpriority,
    asInt_of_get hattempts, asInt_of_get hmax, asFloat_of_get hcreated]

/-- What the entries of a hash are read as. -/
theorem fromHash_of_holds (h : t.Holds payload result fields) (hdict : json.isDict t.payload = true)
    (hloads : json.loads payload = some t.payload)
    (hresult : resultOf json fields = some t.result) (now : Binary64) :
    fromHash json now fields = some t.settled := by
  have hhash := h.2
  simp only [hashEntries, List.forall_mem_cons] at hhash
  obtain ⟨hstatus, hstreamId, hupdated, howner, huntil, herror, hretry, -⟩ := hhash
  rw [fromHash, hresult, Option.map_some, fromStream_of_holds h hdict hloads,
    asText_of_get hstreamId, asStatus_of_get hstatus, asFloat_of_get hupdated, asText_of_get howner,
    asFloat_of_get huntil, asText_of_get herror, asFloat_of_get hretry]
  rfl

theorem resultOf_of_holds (h : t.Holds payload result fields) (hsurvives : t.Survives json)
    (hresult : match t.result with
      | some r => json.loads result = some r
      | none => result = []) : resultOf json fields = some t.result := by
  have hhash := h.2
  simp only [hashEntries, List.forall_mem_cons] at hhash
  obtain ⟨-, -, -, -, -, -, -, hget, -⟩ := hhash
  cases hr : t.result with
  | none =>
    rw [hr] at hresult
    subst hresult
    unfold resultOf
    rw [hget]
  | some r =>
    rw [hr] at hresult
    exact resultOf_of_get hget (hsurvives.2 r hr).1 hresult

theorem fromHash_toHash (json : JsonTools J) (now : Binary64) (t : TaskRecord J)
    (h : t.Survives json) : (t.toHash json).bind (fromHash json now) = some t.settled := by
  obtain ⟨payload, result, hwritten, hloads, hresult⟩ := toHash_eq h
  have hholds := holds_update t payload result
  rw [hwritten, Option.bind_some]
  exact fromHash_of_holds hholds h.1.1 hloads (resultOf_of_holds hholds h hresult) now

/-- Six places write every time of the task, which may be tried once at least. -/
def Exact (t : TaskRecord J) : Prop :=
  1 ≤ t.maxAttempts ∧ t.createdAt.toPlaces 6 = t.createdAt ∧ t.updatedAt.toPlaces 6 = t.updatedAt ∧
    t.leaseUntil.toPlaces 6 = t.leaseUntil ∧ t.nextRetryAt.toPlaces 6 = t.nextRetryAt

theorem settled_eq_iff : t.settled = t ↔ t.Exact := by
  constructor
  · intro h
    have hmax : max 1 t.maxAttempts = t.maxAttempts := congrArg maxAttempts h
    exact ⟨by omega, congrArg createdAt h, congrArg updatedAt h, congrArg leaseUntil h,
      congrArg nextRetryAt h⟩
  · rintro ⟨hmax, hcreated, hupdated, huntil, hretry⟩
    rw [settled, hcreated, hupdated, huntil, hretry, max_eq_right hmax]

/-- **The task** that is read from a hash is the one that was written, with six places in its times
and one attempt at least; it is the same where these are its own. -/
theorem reads_settled (json : JsonTools J) (now : Binary64) (t : TaskRecord J)
    (h : t.Survives json) : (t.toHash json).bind (fromHash json now) = some t.settled ∧
      ((t.toHash json).bind (fromHash json now) = some t ↔ t.Exact) := by
  have hread := fromHash_toHash json now t h
  refine ⟨hread, ?_⟩
  rw [hread, Option.some.injEq]
  exact settled_eq_iff

/-- Dictionaries of texts, of which there are two. -/
def sampleTools : JsonTools (List (Text × Text)) where
  toJsonable d := d
  dumps d :=
    if d = [] then some (of "\x7b\x7d")
    else if d = [(of "url", of "magnet")] then some (of "\x7b\"url\":\"magnet\"\x7d")
    else none
  loads s :=
    if s = of "\x7b\x7d" then some []
    else if s = of "\x7b\"url\":\"magnet\"\x7d" then some [(of "url", of "magnet")]
    else none
  isDict _ := true
  emptyDict := []
  loads_nil := by decide +kernel

/-- A quarter of a microsecond after a full second. -/
def betweenPlaces : Finite64 where
  val := 7130316800000001 / 2 ^ 22
  exact := by
    have hdigits : (7130316800000001 / 2 ^ 22 : ℚ) = (7130316800000001 : ℤ) * 2 ^ (-22 : ℤ) := by
      norm_num
    rw [hdigits]
    exact Binary64.nearest_eq_self (by norm_num) (by norm_num)
  bounded := by decide +kernel

/-- The full second. -/
def fullSecond : Finite64 where
  val := 1700000000
  exact := by
    have hdigits : (1700000000 : ℚ) = (1700000000 : ℤ) * 2 ^ (0 : ℤ) := by norm_num
    rw [hdigits]
    exact Binary64.nearest_eq_self (by norm_num) (by norm_num)
  bounded := by decide +kernel

theorem toPlaces_betweenPlaces :
    Binary64.toPlaces 6 (.finite betweenPlaces) = .finite fullSecond := by
  have hround : roundTo 6 betweenPlaces.val = fullSecond.val := by decide +kernel
  rw [Binary64.toPlaces, hround, Binary64.ofRat_val]

/-- A task that was made at that moment. -/
def momentTask : TaskRecord (List (Text × Text)) where
  id := of "42"
  queueName := of "download"
  taskType := of "demo"
  payload := [(of "url", of "magnet")]
  createdAt := .finite betweenPlaces
  updatedAt := .finite betweenPlaces
  result := some []

theorem survives_momentTask : momentTask.Survives sampleTools := by
  refine ⟨⟨rfl, _, rfl, by decide +kernel⟩, ?_⟩
  rintro r ⟨⟩
  exact ⟨rfl, _, rfl, by decide +kernel⟩

/-- It is read from its hash, at the full second. -/
theorem reads_settled_moment :
    (momentTask.toHash sampleTools).bind (fromHash sampleTools (.finite fullSecond)) =
      some momentTask.settled ∧
    ((momentTask.toHash sampleTools).bind (fromHash sampleTools (.finite fullSecond)) =
      some momentTask ↔ momentTask.Exact) :=
  reads_settled sampleTools (.finite fullSecond) momentTask survives_momentTask

/-- **A quarter of a microsecond** is lost. -/
theorem moment_lost :
    ¬∀ (J : Type) (json : JsonTools J) (now : Binary64) (t : TaskRecord J), t.Survives json →
      (t.toHash json).bind (fromHash json now) = some t := by
  intro h
  have hsame := h _ sampleTools (.finite fullSecond) momentTask survives_momentTask
  rw [fromHash_toHash _ _ _ survives_momentTask] at hsame
  have hmoment : Binary64.toPlaces 6 (.finite betweenPlaces) = .finite betweenPlaces :=
    congrArg createdAt (Option.some.inj hsame)
  rw [toPlaces_betweenPlaces] at hmoment
  have hval : fullSecond.val = betweenPlaces.val :=
    congrArg Finite64.val (Binary64.finite.inj hmoment)
  exact absurd hval (by decide +kernel)

end TaskRecord

end WolfNas
