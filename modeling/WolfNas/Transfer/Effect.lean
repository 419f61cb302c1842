import WolfNas.Transfer.Engine

/-!
# What an operation comes to

The branches of `execute` come to six things an operation can do to the files.  Which one it
is depends on the files and the backends only; where it fails depends on the fault as well.

## Main definitions

* `Effect` — what an operation does to the files.
* `EngineEnv.effect` — what it is in a state of the files.
* `Effect.raises` — the effect fails under a fault.
* `Effect.Spared` — what the effect writes over is held elsewhere.

## Main results

* `execute_eq_apply` — an operation does what its effect says.
* `apply_ok_iff` — it goes through exactly where its effect does not raise.
* `holds_apply` — it loses no content, where what it writes over is held elsewhere.
-/

namespace WolfNas

/-- What an operation does to the files. -/
inductive Effect
  /-- Nothing: it raises before it touches a file. -/
  | refused (e : OsError)
  /-- The target is filled with a content, and the source may be removed then. -/
  | fills (c : Content) (removes : Bool)
  /-- The source takes the name of the target. -/
  | renames
  /-- The target becomes another name of the source. -/
  | links
  /-- The target becomes a symbolic link to the source. -/
  | points
  /-- The target becomes the link that the source is, and the source is removed. -/
  | relinks (target : Loc)

namespace Effect

/-- The removal of the source, where it is asked for. -/
def thenRemove (removes : Bool) (a : Loc) (f : Fault) (s : Store) : Res :=
  if removes then EngineEnv.removeFile s a f else (.ok (), s)

/-- The effect on the source `a` and the target `b`. -/
def apply (s : Store) (a b : Loc) (f : Fault) : Effect → Res
  | refused e => (.error e, s)
  | fills c removes =>
    EngineEnv.andThen (EngineEnv.writeFile s b c f) (thenRemove removes a f)
  | renames => if f = .start then (.error .io, s) else (.ok (), s.rename a b)
  | links => if f = .start then (.error .io, s) else (.ok (), s.copyEntry a b)
  | points => if f = .start then (.error .io, s) else (.ok (), s.symlink (s.follow a) b)
  | relinks target => EngineEnv.removeFile (s.symlink target b) a f

/-- The effect fails under a fault. -/
def raises (f : Fault) : Effect → Bool
  | refused _ => true
  | fills _ removes =>
    match f with
    | .start | .partway _ | .finish => true
    | .removeSrc => removes
    | _ => false
  | renames | links | points => f == .start
  | relinks _ => f == .removeSrc

/-- What an effect finds at the source and the target. -/
def Fits (s : Store) (a b : Loc) : Effect → Prop
  | refused _ => True
  | fills c _ =>
    (s.read a).isSome ∧ s.opens b ∧ (s.read a = some c ∨ s.fileAt a = s.fileAt b)
  | renames => s.entry a ≠ none
  | links => s.entry a ≠ none ∧ s.entry b = none
  | points => s.entry b = none
  | relinks target => s.entry a = some (.link target) ∧ s.entry b = none

/-- What the effect writes over is held elsewhere. -/
def Spared (s : Store) (b : Loc) (f : Fault) : Effect → Prop
  | fills _ _ => f ≠ .start → s.TargetSpare b
  | renames => f ≠ .start → s.NameSpare b
  | _ => True

end Effect

namespace EngineEnv

variable (env : EngineEnv)

/-- The effect of `shutil.copy2`. -/
def copyEffect (s : Store) (a b : Loc) (removes : Bool) : Effect :=
  match s.read a with
  | none => .refused .fileNotFound
  | some c =>
    if s.fileAt a = s.fileAt b then .refused .sameFile
    else if !s.opens b then .refused .io
    else .fills c removes

/-- The effect of a copy within a remote backend. -/
def serverEffect (backend : Backend) (s : Store) (a b : Loc) (removes : Bool) : Effect :=
  match s.read a with
  | none => .refused .fileNotFound
  | some c =>
    if a = b ∧ !env.acceptsSelfCopy backend then .refused .io
    else if !s.opens b then .refused .io
    else .fills c removes

/-- The effect of a copy between backends. -/
def crossEffect (s : Store) (a b : Loc) (removes : Bool) : Effect :=
  match s.read a with
  | none => .refused .fileNotFound
  | some c =>
    if !s.opens b then .refused .io
    else .fills (if s.fileAt a = s.fileAt b then env.truncated else c) removes

/-- The effect of a move on local files. -/
def moveEffect (s : Store) (a b : Loc) : Effect :=
  match s.entry a with
  | none => .refused .fileNotFound
  | some entry =>
    if env.sameDevice a.2 b.2 then .renames
    else match entry with
      | .link target => if s.entry b ≠ none then .refused .fileExists else .relinks target
      | .file _ => copyEffect s a b true

/-- The effect of a hard link. -/
def linkEffect (s : Store) (a b : Loc) : Effect :=
  if s.entry a = none then .refused .fileNotFound
  else if s.entry b ≠ none then .refused .fileExists
  else if env.sameDevice a.2 b.2 then .links
  else copyEffect s a b false

/-- The effect between remote backends, or of a remote backend on itself. -/
def remoteEffect (s : Store) (srcB dstB : Backend) (a b : Loc) (removes : Bool) : Effect :=
  if srcB = dstB then
    if srcB.remote then env.serverEffect srcB s a b removes else copyEffect s a b removes
  else env.crossEffect s a b removes

/-- What an operation comes to. -/
def effect (s : Store) (operation : Operation) (srcB dstB : Backend) (src dst : Text) : Effect :=
  let a := srcB.loc src
  let b := dstB.loc dst
  if srcB = localBackend ∧ dstB = localBackend then
    match operation with
    | .copy => copyEffect s a b false
    | .move => env.moveEffect s a b
    | .link => env.linkEffect s a b
    | .softlink => if s.entry b ≠ none then .refused .fileExists else .points
    | .other => .refused .valueError
  else
    match operation with
    | .copy | .link | .softlink => env.remoteEffect s srcB dstB a b false
    | .move => env.remoteEffect s srcB dstB a b true
    | .other => .refused .valueError

/-! ## An operation does what its effect says -/

private theorem andThen_ok (r : Res) : andThen r (fun s => (.ok (), s)) = r := by
  rcases r with ⟨_ | _, s⟩ <;> rfl

/-- A copy, with or without the removal of the source, does what its effect says. -/
private theorem copy_eq (s : Store) (a b : Loc) (f : Fault) (removes : Bool) :
    andThen (copy2 s a b f) (Effect.thenRemove removes a f) =
      (copyEffect s a b removes).apply s a b f := by
  rw [copy2, copyEffect]
  cases s.read a with
  | none => rfl
  | some c =>
    simp only
    split_ifs <;> rfl

private theorem copy2_eq (s : Store) (a b : Loc) (f : Fault) :
    copy2 s a b f = (copyEffect s a b false).apply s a b f :=
  (andThen_ok _).symm.trans (copy_eq s a b f false)

private theorem serverCopy_eq (backend : Backend) (s : Store) (a b : Loc) (f : Fault)
    (removes : Bool) :
    andThen (env.serverCopy backend s a b f) (Effect.thenRemove removes a f) =
      (env.serverEffect backend s a b removes).apply s a b f := by
  rw [serverCopy, serverEffect]
  cases s.read a with
  | none => rfl
  | some c =>
    simp only
    split_ifs <;> rfl

private theorem crossCopy_eq (s : Store) (a b : Loc) (f : Fault) (removes : Bool) :
    andThen (env.crossCopy s a b f) (Effect.thenRemove removes a f) =
      (env.crossEffect s a b removes).apply s a b f := by
  rw [crossCopy, crossEffect]
  cases s.read a with
  | none => rfl
  | some c =>
    simp only
    split_ifs <;> rfl

private theorem moveLocal_eq (s : Store) (a b : Loc) (f : Fault) :
    env.moveLocal s a b f = (env.moveEffect s a b).apply s a b f := by
  rw [moveLocal, moveEffect]
  cases s.entry a with
  | none => rfl
  | some entry =>
    simp only
    by_cases hdevice : env.sameDevice a.2 b.2
    · rw [if_pos hdevice, if_pos hdevice]
      rfl
    · rw [if_neg hdevice, if_neg hdevice]
      cases entry with
      | link target =>
        simp only
        split_ifs <;> rfl
      | file n => exact copy_eq s a b f true

private theorem hardlink_eq (s : Store) (a b : Loc) (f : Fault) :
    env.hardlink s a b f = (env.linkEffect s a b).apply s a b f := by
  rw [hardlink, linkEffect]
  by_cases hsrc : s.entry a = none
  · rw [if_pos hsrc, if_pos hsrc]
    rfl
  rw [if_neg hsrc, if_neg hsrc]
  by_cases hdst : s.entry b ≠ none
  · rw [if_pos hdst, if_pos hdst]
    rfl
  rw [if_neg hdst, if_neg hdst]
  by_cases hdevice : env.sameDevice a.2 b.2
  · rw [if_pos hdevice, if_pos hdevice]
    rfl
  · rw [if_neg hdevice, if_neg hdevice]
    exact copy2_eq s a b f

private theorem remote_eq (s : Store) (srcB dstB : Backend) (a b : Loc) (f : Fault)
    (removes : Bool) :
    andThen (if srcB = dstB then env.backendCopy srcB s a b f else env.crossCopy s a b f)
        (Effect.thenRemove removes a f) =
      (env.remoteEffect s srcB dstB a b removes).apply s a b f := by
  rw [remoteEffect]
  by_cases hsame : srcB = dstB
  · rw [if_pos hsame, if_pos hsame, backendCopy]
    by_cases hremote : srcB.remote
    · rw [if_pos hremote, if_pos hremote]
      exact env.serverCopy_eq srcB s a b f removes
    · rw [if_neg hremote, if_neg hremote]
      exact copy_eq s a b f removes
  · rw [if_neg hsame, if_neg hsame]
    exact env.crossCopy_eq s a b f removes

/-- An operation does what its effect says. -/
theorem execute_eq_apply (s : Store) (operation : Operation) (srcB dstB : Backend)
    (src dst : Text) (f : Fault) :
    env.execute s operation srcB dstB src dst f =
      (env.effect s operation srcB dstB src dst).apply s (srcB.loc src) (dstB.loc dst) f := by
  rw [execute.eq_def, effect.eq_def]
  by_cases hlocal : srcB = localBackend ∧ dstB = localBackend
  · simp only [if_pos hlocal]
    cases operation with
    | copy => exact copy2_eq ..
    | move => exact env.moveLocal_eq ..
    | link => exact env.hardlink_eq ..
    | softlink =>
      simp only [softlink]
      by_cases hdst : s.entry (dstB.loc dst) ≠ none
      · rw [if_pos hdst, if_pos hdst]
        rfl
      · rw [if_neg hdst, if_neg hdst]
        rfl
    | other => rfl
  · simp only [if_neg hlocal]
    cases operation with
    | copy | link | softlink =>
      rw [← env.remote_eq s srcB dstB _ _ f false]
      exact (andThen_ok _).symm
    | move =>
      rw [← env.remote_eq s srcB dstB _ _ f true]
      by_cases hsame : srcB = dstB
      · rw [if_pos hsame, if_pos hsame]
        rfl
      · rw [if_neg hsame, if_neg hsame]
        rfl
    | other => rfl

/-! ## Links -/

private theorem copyEffect_ne_points (s : Store) (a b : Loc) (removes : Bool) :
    copyEffect s a b removes ≠ .points := by
  rw [copyEffect]
  cases s.read a with
  | none => simp
  | some c =>
    simp only
    split_ifs <;> simp

private theorem remoteEffect_ne_points (s : Store) (srcB dstB : Backend) (a b : Loc)
    (removes : Bool) : env.remoteEffect s srcB dstB a b removes ≠ .points := by
  rw [remoteEffect]
  split_ifs
  · rw [serverEffect]
    cases s.read a with
    | none => simp
    | some c =>
      simp only
      split_ifs <;> simp
  · exact copyEffect_ne_points s a b removes
  · rw [crossEffect]
    cases s.read a with
    | none => simp
    | some c =>
      simp only
      split_ifs <;> simp

private theorem moveEffect_ne_points (s : Store) (a b : Loc) : env.moveEffect s a b ≠ .points := by
  rw [moveEffect]
  cases s.entry a with
  | none => simp
  | some entry =>
    simp only
    by_cases hdevice : env.sameDevice a.2 b.2
    · simp [hdevice]
    · rw [if_neg hdevice]
      cases entry with
      | link target =>
        simp only
        split_ifs <;> simp
      | file n => exact copyEffect_ne_points s a b true

private theorem linkEffect_ne_points (s : Store) (a b : Loc) : env.linkEffect s a b ≠ .points := by
  rw [linkEffect]
  split_ifs
  · simp
  · simp
  · simp
  · exact copyEffect_ne_points s a b false

/-- Only `softlink` makes a link to the source. -/
theorem effect_ne_points {operation : Operation} (h : operation ≠ .softlink) (s : Store)
    (srcB dstB : Backend) (src dst : Text) :
    env.effect s operation srcB dstB src dst ≠ .points := by
  rw [effect.eq_def]
  by_cases hlocal : srcB = localBackend ∧ dstB = localBackend
  · simp only [if_pos hlocal]
    cases operation with
    | copy => exact copyEffect_ne_points _ _ _ _
    | move => exact env.moveEffect_ne_points _ _ _
    | link => exact env.linkEffect_ne_points _ _ _
    | softlink => exact absurd rfl h
    | other => simp
  · simp only [if_neg hlocal]
    cases operation with
    | copy | link | move => exact env.remoteEffect_ne_points _ _ _ _ _ _
    | softlink => exact absurd rfl h
    | other => simp

/-! ## What an effect finds -/

private theorem copyEffect_fits (s : Store) (a b : Loc) (removes : Bool) :
    (copyEffect s a b removes).Fits s a b := by
  rw [copyEffect]
  cases hread : s.read a with
  | none => trivial
  | some c =>
    simp only
    split_ifs with _ hopens
    · trivial
    · trivial
    · exact ⟨by rw [hread]; rfl, by simpa using hopens, Or.inl hread⟩

private theorem remoteEffect_fits (s : Store) (srcB dstB : Backend) (a b : Loc)
    (removes : Bool) : (env.remoteEffect s srcB dstB a b removes).Fits s a b := by
  rw [remoteEffect]
  split_ifs
  · rw [serverEffect]
    cases hread : s.read a with
    | none => trivial
    | some c =>
      simp only
      split_ifs with _ hopens
      · trivial
      · trivial
      · exact ⟨by rw [hread]; rfl, by simpa using hopens, Or.inl hread⟩
  · exact copyEffect_fits s a b removes
  · rw [crossEffect]
    cases hread : s.read a with
    | none => trivial
    | some c =>
      simp only
      split_ifs with hopens hsame
      · trivial
      · exact ⟨by rw [hread]; rfl, by simpa using hopens, Or.inr hsame⟩
      · exact ⟨by rw [hread]; rfl, by simpa using hopens, Or.inl hread⟩

private theorem moveEffect_fits (s : Store) (a b : Loc) : (env.moveEffect s a b).Fits s a b := by
  rw [moveEffect]
  cases hentry : s.entry a with
  | none => trivial
  | some entry =>
    simp only
    by_cases hdevice : env.sameDevice a.2 b.2
    · rw [if_pos hdevice, Effect.Fits, hentry]
      simp
    · rw [if_neg hdevice]
      cases entry with
      | link target =>
        simp only
        split_ifs with hdst
        · trivial
        · exact ⟨hentry, not_not.mp hdst⟩
      | file n => exact copyEffect_fits s a b true

private theorem linkEffect_fits (s : Store) (a b : Loc) : (env.linkEffect s a b).Fits s a b := by
  rw [linkEffect]
  split_ifs with hsrc hdst
  · trivial
  · trivial
  · exact ⟨hsrc, not_not.mp hdst⟩
  · exact copyEffect_fits s a b false

/-- The effect of an operation fits the source and the target. -/
theorem effect_fits (s : Store) (operation : Operation) (srcB dstB : Backend) (src dst : Text) :
    (env.effect s operation srcB dstB src dst).Fits s (srcB.loc src) (dstB.loc dst) := by
  rw [effect.eq_def]
  by_cases hlocal : srcB = localBackend ∧ dstB = localBackend
  · simp only [if_pos hlocal]
    cases operation with
    | copy => exact copyEffect_fits ..
    | move => exact env.moveEffect_fits ..
    | link => exact env.linkEffect_fits ..
    | softlink =>
      simp only
      split_ifs with hdst
      · trivial
      · exact not_not.mp hdst
    | other => trivial
  · simp only [if_neg hlocal]
    cases operation with
    | copy | link | softlink | move => exact env.remoteEffect_fits ..
    | other => trivial

end EngineEnv

/-! ## Where an effect goes through, and what it keeps -/

namespace Effect

open FileStore

variable {s : Store} {a b : Loc} {f : Fault} {e : Effect}

/-- The source of a copy is still there once the target is written. -/
private theorem entry_write_ne_none {x : Content} (h : (s.read a).isSome) :
    (s.write b x).entry a ≠ none := by
  have hentry : s.entry a ≠ none := by
    intro hnone
    have hfollow : s.follow a = a := by simp [follow, hnone]
    simp [FileStore.read, fileAt, hfollow, hnone] at h
  cases hb : s.fileAt b with
  | some m =>
    rw [write_of_fileAt hb]
    exact hentry
  | none =>
    rw [entry_write_of_free hb]
    by_cases hab : a = s.follow b
    · rw [hab, Function.update_self]
      simp
    · rw [Function.update_of_ne hab]
      exact hentry

/-- An effect that fits goes through exactly where it does not raise. -/
theorem apply_ok_iff (h : e.Fits s a b) : (e.apply s a b f).1 = .ok () ↔ e.raises f = false := by
  cases e with
  | refused e => simp [apply, raises]
  | fills c removes =>
    have hentry : (s.write b c).entry a ≠ none := entry_write_ne_none h.1
    cases f <;> cases removes <;>
      simp [apply, raises, EngineEnv.andThen, EngineEnv.writeFile, thenRemove,
        EngineEnv.removeFile, hentry]
  | renames | links | points =>
    simp only [apply, raises]
    split_ifs with hf <;> simp [hf]
  | relinks target =>
    obtain ⟨hsrc, hdst⟩ := h
    have hab : a ≠ b := by
      rintro rfl
      rw [hdst] at hsrc
      cases hsrc
    have hentry : (s.symlink target b).entry a ≠ none := by
      rw [entry_symlink, Function.update_of_ne hab, hsrc]
      simp
    simp only [apply, raises, EngineEnv.removeFile, if_neg hentry]
    split_ifs with hf <;> simp [hf]

/-- Removing a name whose content has another keeps every content. -/
private theorem holds_removeFile {t : Store} {c : Content} (hc : t.Holds c)
    (hc' : (t.unlink a).Holds c) : (EngineEnv.removeFile t a f).2.Holds c := by
  rw [EngineEnv.removeFile]
  split_ifs
  · exact hc
  · exact hc
  · exact hc'

/-- **An effect loses no content**, where what it writes over is held elsewhere. -/
theorem holds_apply {c : Content} (hfits : e.Fits s a b) (hspared : e.Spared s b f)
    (hc : s.Holds c) : (e.apply s a b f).2.Holds c := by
  cases e with
  | refused e => exact hc
  | fills x removes =>
    by_cases hstart : f = .start
    · subst hstart
      exact hc
    have hspare : s.TargetSpare b := hspared hstart
    have hwrite : ∀ y, (s.write b y).Holds c := fun y => holds_write hspare hc
    -- Past the write, the source goes only once its content is at the target.
    have hthen : (thenRemove removes a f (s.write b x)).2.Holds c := by
      rw [thenRemove]
      split_ifs
      · exact holds_removeFile (hwrite x) (holds_write_unlink hspare hfits.2.2 hc)
      · exact hwrite x
    cases f with
    | start => exact absurd rfl hstart
    | partway y => exact hwrite y
    | finish => exact hwrite x
    | none | removeOld | removeSrc => exact hthen
  | renames =>
    rw [apply]
    split_ifs with hf
    · exact hc
    · exact holds_rename (hspared hf) hc
  | links =>
    rw [apply]
    split_ifs
    · exact hc
    · exact holds_copyEntry (nameSpare_of_free hfits.2) hc
  | points =>
    rw [apply]
    split_ifs
    · exact hc
    · exact holds_symlink (nameSpare_of_free hfits) hc
  | relinks target =>
    obtain ⟨hsrc, hdst⟩ := hfits
    have hlink : (s.symlink target b).Holds c := holds_symlink (nameSpare_of_free hdst) hc
    refine holds_removeFile hlink ?_
    -- The source is a link, so no content is held under its name.
    obtain ⟨k, n, hk, hn⟩ := hlink
    have hka : k ≠ a := by
      rintro rfl
      have hkb : k ≠ b := by
        rintro rfl
        rw [hdst] at hsrc
        cases hsrc
      rw [entry_symlink, Function.update_of_ne hkb, hsrc] at hk
      cases hk
    exact hn ▸ holds_unlink hk hka

end Effect

end WolfNas
