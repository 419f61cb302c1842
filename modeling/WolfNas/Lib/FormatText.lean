import WolfNas.Lib.Program
import WolfNas.Lib.Text

/-!
# Format strings

`str.format` with named fields, read from left to right as the interpreter reads it.  A format
that is spelled from slots is filled slot by slot.

## Main definitions

* `Format.Env`, `Format.Env.format` — the fields a format may name, and `str.format`.
* `Format.Slot`, `Format.source` — a part of a format, and the format it is spelled as.
* `Format.fill` — the slots filled one after another.

## Main results

* `Format.format_source` — formatting what slots spell is filling them.
* `Format.fill_ok` — what slots are filled with.
-/

/-- A value that is put into a format; the numbers are ids. -/
inductive FormatValue
  | text (s : Text)
  | int (n : ℕ)
  deriving DecidableEq, Repr

/-- `str(value)`. -/
def FormatValue.str : FormatValue → Text
  | text s => s
  | int n => Text.ofNat n

/-- Why `str.format` raises. -/
inductive FormatError
  | key
  | value
  | index
  | attribute
  deriving DecidableEq, Repr

namespace Format

/-- What a format may name.  An attribute or an item of a value counts as missing. -/
structure Env where
  fields : Text → Option FormatValue
  /-- What a conversion, or a format specification other than a zero-padded width, makes of a
  value. -/
  special : FormatValue → Option Char → Text → Except FormatError Text

/-- The width in a specification such as `03d`. -/
def zeroWidth (spec : Text) : Option ℕ :=
  match spec with
  | '0' :: rest =>
    let width := rest.takeWhile Char.isDigit
    if width ≠ [] ∧ rest.dropWhile Char.isDigit = ['d'] then some (Text.toNat width) else none
  | _ => none

/-- `format(value, spec)` for a zero-padded width: only a number has one. -/
def zeroPadded (width : ℕ) : FormatValue → Except FormatError Text
  | .text _ => .error .value
  | .int n => .ok (Text.rjust width (Text.ofNat n))

/-- `format(value, spec)`, after the conversion. -/
def Env.formatValue (env : Env) (conv : Option Char) (spec : Text) (v : FormatValue) :
    Except FormatError Text :=
  if conv = none ∧ spec = [] then .ok v.str
  else match conv, zeroWidth spec with
    | none, some width => zeroPadded width v
    | _, _ => env.special v conv spec

/-- The text that a field of a format is replaced by. -/
def Env.field (env : Env) (name : Text) (conv : Option Char) (spec : Text) :
    Except FormatError Text :=
  let first := name.takeWhile fun c => c ≠ '.' ∧ c ≠ '['
  -- A number, or no name at all, stands for an argument without a name.
  if first.all Char.isDigit then .error .index
  else match env.fields first with
    | none => .error .key
    | some v => if first = name then env.formatValue conv spec v else .error .attribute

/-- The name of a field, up to what ends it; an index in brackets may hold anything. -/
def fieldName : Bool → Text → Except FormatError (Text × Text)
  | _, [] => .error .value
  | true, c :: s => (fieldName (c ≠ ']') s).map fun r => (c :: r.1, r.2)
  | false, c :: s =>
    if c = '{' then .error .value
    else if c = '}' ∨ c = ':' ∨ c = '!' then .ok ([], c :: s)
    else (fieldName (c = '[') s).map fun r => (c :: r.1, r.2)

/-- The specification of a field, up to the brace that closes it. -/
def fieldSpec : ℕ → Text → Except FormatError (Text × Text)
  | _, [] => .error .value
  | depth, c :: s =>
    if c = '}' ∧ depth = 0 then .ok ([], s)
    else
      let depth := if c = '{' then depth + 1 else if c = '}' then depth - 1 else depth
      (fieldSpec depth s).map fun r => (c :: r.1, r.2)

/-- A field behind its opening brace: its name, conversion and specification, and what follows
it. -/
def parseField (s : Text) : Except FormatError (Text × Option Char × Text × Text) :=
  fieldName false s >>= fun (name, rest) => match rest with
    | '}' :: after => .ok (name, none, [], after)
    | ':' :: rest => (fieldSpec 0 rest).map fun r => (name, none, r.1, r.2)
    | '!' :: c :: '}' :: after => .ok (name, some c, [], after)
    | '!' :: c :: ':' :: rest => (fieldSpec 0 rest).map fun r => (name, some c, r.1, r.2)
    | _ => .error .value

/-- The loop of `str.format`; every turn reads at least one character. -/
def Env.run (env : Env) : ℕ → Text → Except FormatError Text
  | 0, _ => .ok []
  | _ + 1, [] => .ok []
  | n + 1, c :: s =>
    if c = '{' then
      if s.head? = some '{' then (env.run n s.tail).map ('{' :: ·)
      else parseField s >>= fun (name, conv, spec, after) =>
        env.field name conv spec >>= fun t => (env.run n after).map (t ++ ·)
    else if c = '}' then
      if s.head? = some '}' then (env.run n s.tail).map ('}' :: ·) else .error .value
    else (env.run n s).map (c :: ·)

/-- `s.format(**fields)`. -/
def Env.format (env : Env) (s : Text) : Except FormatError Text := env.run (s.length + 1) s

/-- A field that is replaced is there under its whole name. -/
theorem field_ok {env : Env} {name spec t : Text} {conv : Option Char}
    (h : env.field name conv spec = .ok t) :
    ∃ v, env.fields name = some v ∧ env.formatValue conv spec v = .ok t := by
  simp only [Env.field] at h
  split at h
  · simp at h
  · split at h
    · simp at h
    · rename_i v hv
      split at h
      · rename_i hname
        rw [hname] at hv
        exact ⟨v, hv, h⟩
      · simp at h

/-! ## Slots -/

/-- A part of a format: text, a field, or a field with a zero-padded width. -/
inductive Slot
  | text (t : Text)
  | field (key : Text)
  | padded (key width : Text)
  deriving DecidableEq, Repr

/-- A character of a field's name: `[A-Za-z0-9_.]`. -/
def isKeyChar (c : Char) : Bool := c.isAlphanum || c = '_' || c = '.'

/-- The name of a field. -/
def IsKey (key : Text) : Prop := key ≠ [] ∧ ∀ c ∈ key, isKeyChar c = true

instance (key : Text) : Decidable (IsKey key) :=
  decidable_of_iff (key ≠ [] ∧ key.all isKeyChar = true) (by simp [IsKey])

/-- A width, in digits. -/
def IsWidth (width : Text) : Prop := width ≠ [] ∧ ∀ c ∈ width, c.isDigit = true

instance (width : Text) : Decidable (IsWidth width) :=
  decidable_of_iff (width ≠ [] ∧ width.all Char.isDigit = true) (by simp [IsWidth])

/-- The text has no brace. -/
def Unbraced (t : Text) : Prop := '{' ∉ t ∧ '}' ∉ t

instance (t : Text) : Decidable (Unbraced t) := inferInstanceAs (Decidable (_ ∧ _))

namespace Slot

/-- A slot as it is spelled. -/
def source : Slot → Text
  | text t => t
  | field key => '{' :: key ++ ['}']
  | padded key width => '{' :: key ++ ':' :: '0' :: width ++ ['d', '}']

/-- The slot can be told from what it is spelled as. -/
def Valid : Slot → Prop
  | text t => Unbraced t
  | field key => IsKey key
  | padded key width => IsKey key ∧ IsWidth width

instance : DecidablePred Valid
  | text t => inferInstanceAs (Decidable (Unbraced t))
  | field key => inferInstanceAs (Decidable (IsKey key))
  | padded key width => inferInstanceAs (Decidable (IsKey key ∧ IsWidth width))

/-- What the slot is filled with. -/
def fill (env : Env) : Slot → Except FormatError Text
  | text t => .ok t
  | field key => env.field key none []
  | padded key width => env.field key none ('0' :: width ++ ['d'])

end Slot

/-- What slots are spelled as. -/
def source (l : List Slot) : Text := l.flatMap Slot.source

/-- The slots filled one after another. -/
def fill (env : Env) : List Slot → Except FormatError Text
  | [] => .ok []
  | s :: l => s.fill env >>= fun t => (fill env l).map (t ++ ·)

variable {env : Env} {key width t s : Text} {l : List Slot} {n : ℕ}

theorem ne_of_isKeyChar {c d : Char} (hc : isKeyChar c = true) (hd : isKeyChar d = false) : c ≠ d := by
  rintro rfl
  simp [hc] at hd

theorem takeWhile_key (hkey : ∀ c ∈ key, isKeyChar c = true) {d : Char} (hd : isKeyChar d = false) :
    (key ++ d :: s).takeWhile isKeyChar = key ∧ (key ++ d :: s).dropWhile isKeyChar = d :: s := by
  rw [List.takeWhile_append_of_pos hkey, List.dropWhile_append_of_pos hkey]
  simp [hd]

theorem takeWhile_width (hwidth : ∀ c ∈ width, c.isDigit = true) {d : Char} (hd : d.isDigit = false) :
    (width ++ d :: s).takeWhile Char.isDigit = width ∧
      (width ++ d :: s).dropWhile Char.isDigit = d :: s := by
  rw [List.takeWhile_append_of_pos hwidth, List.dropWhile_append_of_pos hwidth]
  simp [hd]

/-- A name ends where it is closed, or where its specification begins. -/
theorem fieldName_key (hkey : ∀ c ∈ key, isKeyChar c = true) {d : Char} (hd : d = '}' ∨ d = ':') :
    fieldName false (key ++ d :: s) = .ok (key, d :: s) := by
  induction key with
  | nil => rcases hd with rfl | rfl <;> simp [fieldName]
  | cons c key ih =>
    have hc := hkey c List.mem_cons_self
    have ih := ih fun c hc => hkey c (List.mem_cons_of_mem _ hc)
    have hne : ∀ d, isKeyChar d = false → c ≠ d := fun d hd => ne_of_isKeyChar hc hd
    have hopen := hne '{' (by decide)
    have hclose := hne '}' (by decide)
    have hcolon := hne ':' (by decide)
    have hbang := hne '!' (by decide)
    have hbracket := hne '[' (by decide)
    simp [fieldName, hopen, hclose, hcolon, hbang, hbracket, ih, Except.map]

theorem fieldSpec_unbraced (ht : Unbraced t) : fieldSpec 0 (t ++ '}' :: s) = .ok (t, s) := by
  induction t with
  | nil => simp [fieldSpec]
  | cons c t ih =>
    have hopen : c ≠ '{' := by
      intro h
      exact ht.1 (h ▸ List.mem_cons_self)
    have hclose : c ≠ '}' := by
      intro h
      exact ht.2 (h ▸ List.mem_cons_self)
    have ih := ih ⟨fun h => ht.1 (List.mem_cons_of_mem _ h), fun h => ht.2 (List.mem_cons_of_mem _ h)⟩
    simp [fieldSpec, hopen, hclose, ih, Except.map]

theorem unbraced_width (hwidth : IsWidth width) : Unbraced ('0' :: width ++ ['d']) := by
  have hdigit : ∀ d : Char, d.isDigit = false → d ∉ width := by
    intro d hd hmem
    simp [hwidth.2 d hmem] at hd
  simp [Unbraced, hdigit '{' (by decide), hdigit '}' (by decide)]

/-- A name begins with no brace. -/
theorem head_ne_open (hkey : IsKey key) : ∃ c rest, key = c :: rest ∧ c ≠ '{' := by
  obtain ⟨c, rest, rfl⟩ := List.exists_cons_of_ne_nil hkey.1
  exact ⟨c, rest, rfl, ne_of_isKeyChar (hkey.2 c List.mem_cons_self) (by decide)⟩

/-- Text without braces is copied. -/
theorem run_unbraced (ht : Unbraced t) (hn : (t ++ s).length < n) :
    ∃ m, s.length < m ∧ env.run n (t ++ s) = (env.run m s).map (t ++ ·) := by
  induction t generalizing n with
  | nil =>
    refine ⟨n, hn, ?_⟩
    rw [List.nil_append]
    cases env.run n s <;> rfl
  | cons c t ih =>
    obtain ⟨n, rfl⟩ : ∃ k, n = k + 1 := ⟨n - 1, by omega⟩
    have hopen : c ≠ '{' := by
      intro h
      exact ht.1 (h ▸ List.mem_cons_self)
    have hclose : c ≠ '}' := by
      intro h
      exact ht.2 (h ▸ List.mem_cons_self)
    have ht : Unbraced t :=
      ⟨fun h => ht.1 (List.mem_cons_of_mem _ h), fun h => ht.2 (List.mem_cons_of_mem _ h)⟩
    obtain ⟨m, hm, hrun⟩ := ih ht (by simp at hn ⊢; omega)
    refine ⟨m, hm, ?_⟩
    simp only [List.cons_append, Env.run, hopen, hclose, if_false, hrun]
    cases env.run m s <;> rfl

/-- A field is replaced. -/
theorem run_field {spec : Text} (hkey : IsKey key)
    (hparse : parseField (key ++ t ++ s) = .ok (key, none, spec, s))
    (hn : ('{' :: (key ++ t ++ s)).length < n) :
    ∃ m, s.length < m ∧ env.run n ('{' :: (key ++ t ++ s)) =
      env.field key none spec >>= fun u => (env.run m s).map (u ++ ·) := by
  obtain ⟨n, rfl⟩ : ∃ k, n = k + 1 := ⟨n - 1, by omega⟩
  refine ⟨n, by simp at hn; omega, ?_⟩
  obtain ⟨c, rest, rfl, hc⟩ := head_ne_open hkey
  have hhead : (c :: rest ++ t ++ s).head? ≠ some '{' := by simpa using hc
  rw [Env.run, if_pos rfl, if_neg hhead, hparse]
  rfl

/-- Formatting begins with the first slot. -/
theorem run_slot {slot : Slot} (hslot : slot.Valid) (hn : (slot.source ++ s).length < n) :
    ∃ m, s.length < m ∧ env.run n (slot.source ++ s) =
      slot.fill env >>= fun t => (env.run m s).map (t ++ ·) := by
  cases slot with
  | text t => exact run_unbraced hslot hn
  | field key =>
    have hparse : parseField (key ++ ['}'] ++ s) = .ok (key, none, [], s) := by
      simp [parseField, fieldName_key hslot.2, bind, Except.bind]
    have hsource : (Slot.field key).source ++ s = '{' :: (key ++ ['}'] ++ s) := by
      simp [Slot.source]
    rw [hsource] at hn ⊢
    exact run_field hslot hparse hn
  | padded key width =>
    have hparse : parseField (key ++ (':' :: '0' :: width ++ ['d', '}']) ++ s) =
        .ok (key, none, '0' :: width ++ ['d'], s) := by
      have hspec := @fieldSpec_unbraced ('0' :: width ++ ['d']) s (unbraced_width hslot.2)
      simp only [List.cons_append, List.append_assoc, List.nil_append] at hspec ⊢
      simp [parseField, fieldName_key hslot.1.2, bind, Except.bind, hspec, Except.map]
    have hsource : (Slot.padded key width).source ++ s =
        '{' :: (key ++ (':' :: '0' :: width ++ ['d', '}']) ++ s) := by
      simp [Slot.source]
    rw [hsource] at hn ⊢
    exact run_field hslot.1 hparse hn

/-- **Formatting what slots spell** is filling them one after another. -/
theorem format_source (hl : ∀ slot ∈ l, slot.Valid) : env.format (source l) = fill env l := by
  have hrun : ∀ n, (source l).length < n → env.run n (source l) = fill env l := by
    induction l with
    | nil =>
      intro n hn
      cases n with
      | zero => rfl
      | succ n => rfl
    | cons slot l ih =>
      intro n hn
      obtain ⟨m, hm, hslot⟩ := @run_slot env (source l) n slot (hl slot List.mem_cons_self) hn
      have ih := ih (fun slot hslot => hl slot (List.mem_cons_of_mem _ hslot)) m hm
      have hcons : source (slot :: l) = slot.source ++ source l := rfl
      rw [hcons, hslot, ih, fill]
  exact hrun _ (Nat.lt_succ_self _)

/-- The slots are filled exactly where each of them is. -/
theorem fill_ok (h : fill env l = .ok t) : ∀ slot ∈ l, ∃ u, slot.fill env = .ok u := by
  induction l generalizing t with
  | nil => simp
  | cons slot l ih =>
    obtain ⟨u, hu, hl⟩ := Raise.bind_ok_iff.mp h
    cases hfill : fill env l with
    | error e => simp [hfill, Except.map] at hl
    | ok v =>
      intro other hother
      rcases List.mem_cons.mp hother with rfl | hother
      · exact ⟨u, hu⟩
      · exact ih hfill other hother

end Format
