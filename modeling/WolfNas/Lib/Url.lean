import Mathlib.Data.List.Infix
import WolfNas.Lib.Text

/-!
# Links and their parts

The functions of the standard library that take a link apart, read the fields of its query
and put both together again.  A link is refused where its host is written in an impossible
way; which spellings of a host those are, beyond unpaired brackets, is a parameter.

## Main definitions

* `Text.cutAt` — a text in front of a character, and behind its first occurrence.
* `Url.SplitResult`, `Url.split`, `Url.unsplit` — the parts of a link.
* `Url.unquotePlus`, `Url.quotePlus` — the escapes in a query field.
* `Url.parseQsl`, `Url.urlencode` — the fields of a query.
* `Text.like` — the pattern match of a database query.

## Main results

* `Text.mem_of_like` — a text that matches a pattern has each plain character of the pattern.
-/

namespace Text

/-- The text in front of the first `c`, and the text behind it. -/
def cutAt (c : Char) (s : Text) : Text × Text :=
  (s.takeWhile (· != c), (s.dropWhile (· != c)).tail)

theorem cutAt_of_not_mem {c : Char} {s : Text} (h : c ∉ s) : cutAt c s = (s, []) := by
  have hall : ∀ d ∈ s, (d != c) = true := by
    intro d hd
    rw [bne_iff_ne]
    intro he
    exact h (he ▸ hd)
  have htake : s.takeWhile (· != c) = s := List.takeWhile_eq_self_iff.mpr hall
  have hdrop : s.dropWhile (· != c) = [] := List.dropWhile_eq_nil_iff.mpr hall
  rw [cutAt, htake, hdrop]
  rfl

theorem cutAt_append {c : Char} {s : Text} (h : c ∉ s) (t : Text) :
    cutAt c (s ++ c :: t) = (s, t) := by
  induction s with
  | nil => simp [cutAt]
  | cons d s ih =>
    have hd : d ≠ c := fun he => h (by simp [he])
    have := ih fun hs => h (by simp [hs])
    simp only [cutAt, Prod.mk.injEq] at this ⊢
    simp [hd, this.1, this.2]

theorem not_mem_cutAt (c : Char) (s : Text) : c ∉ (cutAt c s).1 := by
  intro h
  have := List.mem_takeWhile_imp h
  simp at this

/-- Clipping a text clips what stands in front of a character. -/
theorem cutAt_take (c : Char) (s : Text) (n : ℕ) :
    (cutAt c (s.take n)).1 = (cutAt c s).1.take n := by
  induction s generalizing n with
  | nil => simp [cutAt]
  | cons d s ih =>
    cases n with
    | zero => simp [cutAt]
    | succ n =>
      have := ih n
      simp only [cutAt] at this ⊢
      by_cases hd : d = c
      · simp [hd]
      · simp [hd, this]

/-- `LIKE`: `%` stands for any text, `_` for any character, and letter case does not
matter. -/
def like : Text → Text → Bool
  | [], s => s.isEmpty
  | c :: p, s =>
    if c = '%' then s.tails.any fun t => like p t
    else match s with
      | [] => false
      | d :: s => (c = '_' || c.toLower == d.toLower) && like p s

/-- A text that matches a pattern has each character of the pattern that is no wildcard. -/
theorem mem_of_like {p s : Text} (h : like p s = true) {c : Char} (hc : c ∈ p) (hall : c ≠ '%')
    (hone : c ≠ '_') : ∃ d ∈ s, d.toLower = c.toLower := by
  induction p generalizing s with
  | nil => simp at hc
  | cons a p ih =>
    rw [like.eq_def] at h
    simp only at h
    by_cases ha : a = '%'
    · rw [if_pos ha] at h
      obtain ⟨t, ht, hl⟩ := List.any_eq_true.mp h
      have hcp : c ∈ p := (List.mem_cons.mp hc).resolve_left fun he => hall (he.trans ha)
      obtain ⟨d, hd, hdc⟩ := ih hl hcp
      exact ⟨d, ((List.mem_tails t s).mp ht).subset hd, hdc⟩
    · rw [if_neg ha] at h
      cases s with
      | nil => simp at h
      | cons d s =>
        obtain ⟨hd, hl⟩ := by simpa using h
        rcases List.mem_cons.mp hc with rfl | hcp
        · exact ⟨d, by simp, (hd.resolve_left hone).symm⟩
        · obtain ⟨e, he, hec⟩ := ih hl hcp
          exact ⟨e, by simp [he], hec⟩

/-- Lower case does not make a question mark. -/
theorem eq_question_of_toLower {c : Char} (h : c.toLower = '?') : c = '?' := by
  delta Char.toLower at h
  split at h
  · rename_i hup
    have hlo : 65 ≤ c.val.toNat := hup.1
    have hhi : c.val.toNat ≤ 90 := hup.2
    have hd : ('a'.val - 'A'.val).toNat = 32 := by decide +kernel
    have h63 : ('?' : Char).val.toNat = 63 := by decide +kernel
    have hv := congrArg (fun d : Char => d.val.toNat) h
    simp only [UInt32.toNat_add, hd, h63] at hv
    omega
  · exact h

/-- A pattern that starts with a plain character matches no text that starts with another. -/
theorem not_like_of_head {a b : Char} {p s : Text} (hall : a ≠ '%') (hone : a ≠ '_')
    (h : a.toLower ≠ b.toLower) : like (a :: p) (b :: s) = false := by
  simp [like, hall, hone, h]

end Text

namespace Url

open Text

/-! ## The parts of a link -/

/-- `SplitResult`. -/
structure SplitResult where
  scheme : Text
  netloc : Text
  path : Text
  query : Text
  fragment : Text
  deriving DecidableEq, Repr

/-- The link as `urlsplit` reads it: without control characters and blanks in front, and
without tabs and line breaks. -/
def clean (url : Text) : Text :=
  (url.dropWhile fun c => c.toNat ≤ 32).filter fun c => c ≠ '\t' ∧ c ≠ '\r' ∧ c ≠ '\n'

/-- `scheme_chars`. -/
def isSchemeChar (c : Char) : Bool := c.isAlphanum || c = '+' || c = '-' || c = '.'

/-- The scheme of a link, in lower case, and what follows it. -/
def splitScheme (url : Text) : Text × Text :=
  let name := (cutAt ':' url).1
  if ':' ∈ url ∧ name.head?.any Char.isAlpha ∧ name.all isSchemeChar then
    (name.lower, (cutAt ':' url).2)
  else ([], url)

/-- `_splitnetloc`, where the link goes on with two slashes. -/
def splitNetloc : Text → Text × Text
  | '/' :: '/' :: url =>
    let stop := fun c => c ≠ '/' ∧ c ≠ '?' ∧ c ≠ '#'
    (url.takeWhile fun c => stop c, url.dropWhile fun c => stop c)
  | url => ([], url)

/-- `urlsplit`; nothing where it refuses the host. -/
def split (hostOk : Text → Bool) (url : Text) : Option SplitResult :=
  let (scheme, rest) := splitScheme (clean url)
  let (netloc, rest) := splitNetloc rest
  if ('[' ∈ netloc ↔ ']' ∈ netloc) ∧ hostOk netloc then
    let (rest, fragment) := cutAt '#' rest
    let (path, query) := cutAt '?' rest
    some { scheme, netloc, path, query, fragment }
  else none

/-- `uses_netloc`. -/
def usesNetloc : List Text :=
  ["ftp", "http", "gopher", "nntp", "telnet", "imap", "wais", "file", "mms", "https", "shttp",
    "snews", "prospero", "rtsp", "rtsps", "rtspu", "rsync", "svn", "svn+ssh", "sftp", "nfs",
    "git", "git+ssh", "ws", "wss", "itms-services"].map of

/-- The host and the path as `urlunsplit` joins them. -/
def joinNetloc (scheme netloc path : Text) : Text :=
  if netloc ≠ [] then
    of "//" ++ netloc ++ if path ≠ [] ∧ path.head? ≠ some '/' then '/' :: path else path
  else if path.take 2 = of "//" then of "//" ++ path
  else if scheme ≠ [] ∧ scheme ∈ usesNetloc ∧ (path = [] ∨ path.head? = some '/') then
    of "//" ++ path
  else path

/-- `urlunsplit`. -/
def unsplit (parts : SplitResult) : Text :=
  let url := joinNetloc parts.scheme parts.netloc parts.path
  let url := if parts.scheme ≠ [] then parts.scheme ++ ':' :: url else url
  let url := if parts.query ≠ [] then url ++ '?' :: parts.query else url
  if parts.fragment ≠ [] then url ++ '#' :: parts.fragment else url

/-! ## Escapes -/

/-- The octets of a character in UTF-8. -/
def utf8 (c : Char) : List ℕ :=
  let n := c.toNat
  if n < 0x80 then [n]
  else if n < 0x800 then [0xc0 + n / 0x40, 0x80 + n % 0x40]
  else if n < 0x10000 then [0xe0 + n / 0x1000, 0x80 + n / 0x40 % 0x40, 0x80 + n % 0x40]
  else [0xf0 + n / 0x40000, 0x80 + n / 0x1000 % 0x40, 0x80 + n / 0x40 % 0x40, 0x80 + n % 0x40]

/-- A sequence of octets that is not complete: the value so far, how many octets are still to
come, and the least and the greatest value of the next one. -/
structure Pending where
  value : ℕ
  left : ℕ
  least : ℕ := 0x80
  most : ℕ := 0xbf

/-- The character that stands for octets that are no UTF-8. -/
def replacement : Char := Char.ofNat 0xfffd

/-- What the first octet of a sequence leads to: a character, or a sequence to complete. -/
def lead (b : ℕ) : Char ⊕ Pending :=
  if b < 0x80 then .inl (Char.ofNat b)
  else if 0xc2 ≤ b ∧ b ≤ 0xdf then .inr { value := b - 0xc0, left := 0 }
  else if b = 0xe0 then .inr { value := 0, left := 1, least := 0xa0 }
  else if b = 0xed then .inr { value := 0xd, left := 1, most := 0x9f }
  else if 0xe1 ≤ b ∧ b ≤ 0xef then .inr { value := b - 0xe0, left := 1 }
  else if b = 0xf0 then .inr { value := 0, left := 2, least := 0x90 }
  else if b = 0xf4 then .inr { value := 4, left := 2, most := 0x8f }
  else if 0xf1 ≤ b ∧ b ≤ 0xf3 then .inr { value := b - 0xf0, left := 2 }
  else .inl replacement

/-- `bytes.decode("utf-8", "replace")`, behind the first octets of a sequence. -/
def decodeUtf8 : Option Pending → List ℕ → Text
  | none, [] => []
  | some _, [] => [replacement]
  | some p, b :: bs =>
    if p.least ≤ b ∧ b ≤ p.most then
      let value := p.value * 0x40 + (b - 0x80)
      match p.left with
      | 0 => Char.ofNat value :: decodeUtf8 none bs
      | left + 1 => decodeUtf8 (some { value, left }) bs
    else match lead b with
      | .inl c => replacement :: c :: decodeUtf8 none bs
      | .inr p => replacement :: decodeUtf8 (some p) bs
  | none, b :: bs => match lead b with
    | .inl c => c :: decodeUtf8 none bs
    | .inr p => decodeUtf8 (some p) bs

/-- The value of a hexadecimal digit. -/
def hexValue (c : Char) : Option ℕ :=
  if c.isDigit then some (c.toNat - '0'.toNat)
  else if 'a' ≤ c ∧ c ≤ 'f' then some (c.toNat - 'a'.toNat + 10)
  else if 'A' ≤ c ∧ c ≤ 'F' then some (c.toNat - 'A'.toNat + 10)
  else none

/-- `unquote_to_bytes`. -/
def unquoteToBytes : Text → List ℕ
  | '%' :: a :: b :: rest => match hexValue a, hexValue b with
    | some x, some y => (16 * x + y) :: unquoteToBytes rest
    | _, _ => utf8 '%' ++ unquoteToBytes (a :: b :: rest)
  | c :: s => utf8 c ++ unquoteToBytes s
  | [] => []

/-- `unquote_plus`.  The code decodes each run of ASCII characters by itself; any other
character starts with the first octet of a sequence, so it ends the sequence before it. -/
def unquotePlus (s : Text) : Text :=
  decodeUtf8 none (unquoteToBytes (s.map fun c => if c = '+' then ' ' else c))

/-- A hexadecimal digit, in upper case. -/
def hexDigit (n : ℕ) : Char := if n < 10 then Char.ofNat (48 + n) else Char.ofNat (55 + n)

/-- One octet as `quote_plus` writes it. -/
def quoteByte (b : ℕ) : Text :=
  let c := Char.ofNat b
  if c = ' ' then ['+']
  else if b < 0x80 ∧ (c.isAlphanum ∨ c = '_' ∨ c = '.' ∨ c = '-' ∨ c = '~') then [c]
  else ['%', hexDigit (b / 16), hexDigit (b % 16)]

/-- `quote_plus`. -/
def quotePlus (s : Text) : Text := (s.flatMap utf8).flatMap quoteByte

/-! ## The fields of a query -/

/-- `parse_qsl(query, keep_blank_values=True)`. -/
def parseQsl (query : Text) : List (Text × Text) :=
  ((query.splitOn '&').filter (· ≠ [])).map fun field =>
    (unquotePlus (cutAt '=' field).1, unquotePlus (cutAt '=' field).2)

/-- `urlencode`. -/
def urlencode (fields : List (Text × Text)) : Text :=
  ['&'].intercalate (fields.map fun field => quotePlus field.1 ++ '=' :: quotePlus field.2)

/-! ## What stands in front of the query -/

theorem split_scheme {hostOk : Text → Bool} {url : Text} {parts : SplitResult}
    (h : split hostOk url = some parts) : parts.scheme = (splitScheme (clean url)).1 := by
  simp only [split] at h
  split at h
  · obtain rfl := Option.some.inj h
    rfl
  · simp at h

/-- A link that is put together starts with its scheme. -/
theorem scheme_prefix_unsplit (parts : SplitResult) : parts.scheme <+: unsplit parts := by
  by_cases hs : parts.scheme = []
  · simp [hs]
  · by_cases hq : parts.query = [] <;> by_cases hf : parts.fragment = [] <;>
      simp [unsplit, hs, hq, hf]

end Url
