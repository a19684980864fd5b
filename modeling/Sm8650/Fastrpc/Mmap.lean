import Mathlib.Data.List.Basic

/-!
# Buffer maps of a FastRPC process

A map is found by its file descriptor and a range inside it, newest first, and is
shared by reference counting: `refs` decides when the map is destroyed, `ctxRefs`
counts the remote calls that use it. Maps live in a table by the order of their
allocation, so that a map can be spoken of after it was destroyed.
-/

namespace Sm8650.Fastrpc

/-- `INT_MAX` -/
def intMax : Int := 2147483647

/-- `FASTRPC_ATTR_NOVA` -/
def fastrpcAttrNova : BitVec 32 := 0x1

/-- `FASTRPC_ATTR_KEEP_MAP` -/
def fastrpcAttrKeepMap : BitVec 32 := 0x8

/-- `FASTRPC_ATTR_NOMAP` -/
def fastrpcAttrNomap : BitVec 32 := 16

/-- `struct fastrpc_mmap`. `freed` records that the map went through `kfree`. -/
structure Mmap where
  fd : BitVec 32
  va : BitVec 64
  len : BitVec 64
  refs : Int
  ctxRefs : Nat
  freed : Bool
deriving DecidableEq, Inhabited

/-- The range test of `fastrpc_mmap_find`. -/
def Mmap.covers (map : Mmap) (fd : BitVec 32) (va len : BitVec 64) : Bool :=
  decide (map.va ≤ va) && decide (va + len ≤ map.va + map.len) && map.fd == fd

/-- The maps of a `struct fastrpc_file`: every map ever allocated, how many these
are, and the list `maps` of those that can be found. -/
structure FastrpcFile where
  mmap : Nat → Mmap
  born : Nat
  maps : List Nat

namespace FastrpcFile

/-- Replace one map. -/
def update (file : FastrpcFile) (id : Nat) (map : Mmap) : FastrpcFile :=
  { file with mmap := Function.update file.mmap id map }

variable (file : FastrpcFile)

@[simp]
theorem update_maps (id : Nat) (map : Mmap) : (file.update id map).maps = file.maps := rfl

@[simp]
theorem update_born (id : Nat) (map : Mmap) : (file.update id map).born = file.born := rfl

@[simp]
theorem update_mmap (id : Nat) (map : Mmap) (x : Nat) :
    (file.update id map).mmap x = if x = id then map else file.mmap x := by
  simp only [update, Function.update_apply]

@[simp]
theorem update_update (id : Nat) (map later : Mmap) :
    (file.update id map).update id later = file.update id later := by
  simp only [update, Function.update_idem]

/-- `fastrpc_mmap_find` over the maps of the process: the error codes are one `none`,
since every caller asks only whether a map was found. -/
def mmapFind (file : FastrpcFile) (fd : BitVec 32) (va len : BitVec 64) (refs : Bool) :
    FastrpcFile × Option Nat :=
  if va + len < va then (file, none)
  else
    match file.maps.find? fun id => (file.mmap id).covers fd va len with
    | none => (file, none)
    | some id =>
      if refs then
        if (file.mmap id).refs + 1 = intMax then (file, none)
        else
          (file.update id { file.mmap id with refs := (file.mmap id).refs + 1 }, some id)
      else (file, some id)

/-- The map `fastrpc_mmap_create` fills in when none was found. -/
def newMmap (fd attr : BitVec 32) (va len : BitVec 64) (nomap : Bool) : Mmap :=
  if nomap then
    { fd := fd, va := 0, len := len, refs := 1, ctxRefs := 0, freed := false }
  else
    { fd := fd, va := va, len := len,
      refs := if attr &&& fastrpcAttrKeepMap ≠ 0 then 2 else 1, ctxRefs := 0, freed := false }

/-- `fastrpc_mmap_add` of a map that was just allocated. -/
def mmapAdd (file : FastrpcFile) (map : Mmap) : FastrpcFile where
  mmap := Function.update file.mmap file.born map
  born := file.born + 1
  maps := file.born :: file.maps

/-- `fastrpc_mmap_create`; `mapped` says whether the buffer of a new map could be
taken and mapped. -/
def mmapCreate (file : FastrpcFile) (fd attr : BitVec 32) (va len : BitVec 64)
    (nomap mapped : Bool) : FastrpcFile × Option Nat :=
  match file.mmapFind fd va len true with
  | (file, some id) => (file, some id)
  | (file, none) =>
    if mapped then (file.mmapAdd (newMmap fd attr va len nomap), some file.born)
    else (file, none)

/-- `map->ctx_refs++` -/
def takeCtxRef (file : FastrpcFile) (id : Nat) : FastrpcFile :=
  file.update id { file.mmap id with ctxRefs := (file.mmap id).ctxRefs + 1 }

/-- `if (map->ctx_refs) map->ctx_refs--` -/
def dropCtxRef (file : FastrpcFile) (id : Nat) : FastrpcFile :=
  file.update id { file.mmap id with ctxRefs := (file.mmap id).ctxRefs - 1 }

/-- `hlist_del_init` -/
def unhash (file : FastrpcFile) (id : Nat) : FastrpcFile :=
  { file with maps := file.maps.filter (· ≠ id) }

/-- `fastrpc_mmap_free` of a map of the process, without flags: the map leaves the
list only when no remote call uses it either, yet is destroyed on `refs` alone. -/
def mmapFree (file : FastrpcFile) (id : Nat) : FastrpcFile :=
  let map := { file.mmap id with refs := (file.mmap id).refs - 1 }
  let file := file.update id map
  let file := if map.refs = 0 ∧ map.ctxRefs = 0 then file.unhash id else file
  if 0 < map.refs then file else file.update id { map with freed := true }

/-- The two lines by which a map is given back: the remote call no longer uses it,
then its reference goes. -/
def release (file : FastrpcFile) (id : Nat) : FastrpcFile :=
  (file.dropCtxRef id).mmapFree id

/-- The loop over a part of the `maps` array that gives every map back;
`fastrpc_mmap_free` of no map does nothing. -/
def releaseAll (file : FastrpcFile) : List (Option Nat) → FastrpcFile
  | [] => file
  | none :: maps => file.releaseAll maps
  | some id :: maps => (file.release id).releaseAll maps

end FastrpcFile

/-! ## References -/

/-- What holds of a map to which `references` entries of the `maps` arrays refer. -/
structure Mmap.Holds (map : Mmap) (references : Nat) : Prop where
  gone : map.freed = true → references = 0
  counted : map.freed = false → (references : Int) ≤ map.refs
  alive : map.freed = false → 1 ≤ map.refs
  used : map.freed = false → (map.ctxRefs : Int) ≤ map.refs

/-- The maps of a process agree with the references to them: a destroyed map has
none and is not found any more, and any other has at least as many `refs`. -/
structure FastrpcFile.Sound (file : FastrpcFile) (references : Nat → Nat) : Prop where
  holds : ∀ id < file.born, (file.mmap id).Holds (references id)
  unborn : ∀ id, file.born ≤ id → references id = 0
  hashed : ∀ id ∈ file.maps, id < file.born ∧ (file.mmap id).freed = false

namespace FastrpcFile.Sound

variable {file : FastrpcFile} {references : Nat → Nat}

/-- A map that is referred to has not been destroyed. -/
theorem live_of_referred (sound : file.Sound references) (id : Nat)
    (referred : 0 < references id) : id < file.born ∧ (file.mmap id).freed = false := by
  have bornId : id < file.born := by
    by_contra late
    have none := sound.unborn id (Nat.le_of_not_lt late)
    omega
  refine ⟨bornId, ?_⟩
  by_contra destroyed
  have none := (sound.holds id bornId).gone (by simpa using destroyed)
  omega

variable {now : Nat → Nat}

/-- Nothing is lost when references go away. -/
theorem mono (sound : file.Sound references) (fewer : ∀ x, now x ≤ references x)
    : file.Sound now where
  holds := fun x bornX => by
    have holds := sound.holds x bornX
    have bound := fewer x
    refine ⟨fun destroyed => ?_, fun live => ?_, holds.alive, holds.used⟩
    · have none := holds.gone destroyed
      omega
    · have counted := holds.counted live
      omega
  unborn := fun x late => Nat.le_zero.mp (sound.unborn x late ▸ fewer x)
  hashed := sound.hashed

variable {id : Nat}

/-- One map changes: the others keep what is known of them. -/
theorem update (sound : file.Sound references) {map : Mmap}
    (same : ∀ x, x ≠ id → now x = references x) (live : id < file.born) (kept : map.freed = false)
    (holds : map.Holds (now id)) : (file.update id map).Sound now where
  holds := fun x bornX => by
    by_cases isId : x = id
    · simpa [isId] using holds
    · simpa [isId, same x isId] using sound.holds x bornX
  unborn := fun x late => by
    have other : x ≠ id := by
      rintro rfl
      exact absurd live (Nat.not_lt.mpr late)
    rw [same x other, sound.unborn x late]
  hashed := fun x hashedX => by
    obtain ⟨bornX, liveX⟩ := sound.hashed x hashedX
    refine ⟨bornX, ?_⟩
    by_cases isId : x = id
    · simpa [isId] using kept
    · simpa [isId] using liveX

variable {va len : BitVec 64} {after : FastrpcFile}

/-- `fastrpc_mmap_find` returns maps that are still there. -/
theorem mmapFind_live (sound : file.Sound references) {fd : BitVec 32} {refs : Bool}
    (found : file.mmapFind fd va len refs = (after, some id)) :
    id < file.born ∧ (file.mmap id).freed = false := by
  unfold FastrpcFile.mmapFind at found
  split at found
  · simp at found
  · split at found
    · simp at found
    · next other present =>
        have isMember := sound.hashed other (List.mem_of_find?_eq_some present)
        split at found
        · split at found
          · simp at found
          · simp only [Prod.mk.injEq, Option.some.injEq] at found
            exact found.2 ▸ isMember
        · simp only [Prod.mk.injEq, Option.some.injEq] at found
          exact found.2 ▸ isMember

/-- A map that is found with a reference to be taken has one more afterwards. -/
theorem mmapFind_eq {fd : BitVec 32} (found : file.mmapFind fd va len true = (after, some id)) :
    after = file.update id { file.mmap id with refs := (file.mmap id).refs + 1 } := by
  unfold FastrpcFile.mmapFind at found
  split at found
  · simp at found
  · split at found
    · simp at found
    · simp only [if_true] at found
      split at found
      · simp at found
      · simp only [Prod.mk.injEq, Option.some.injEq] at found
        obtain ⟨isAfter, rfl⟩ := found
        exact isAfter.symm

/-- A search that finds nothing leaves the maps alone. -/
theorem mmapFind_none {fd : BitVec 32} {refs : Bool}
    (missed : file.mmapFind fd va len refs = (after, none)) : after = file := by
  unfold FastrpcFile.mmapFind at missed
  split at missed
  · simpa using missed.symm
  · split at missed
    · simpa using missed.symm
    · split at missed
      · split at missed
        · simpa using missed.symm
        · simp at missed
      · simp at missed

/-- A map that was just allocated and is used by the call that allocated it. -/
theorem mmapAdd (sound : file.Sound references) {map : Mmap} (fresh : map.freed = false)
    (counted : 1 ≤ map.refs) (used : map.ctxRefs ≤ map.refs) :
    (file.mmapAdd map).Sound fun x => references x + [some file.born].count (some x) where
  holds := fun x bornX => by
    by_cases isNew : x = file.born
    · subst isNew
      have none := sound.unborn file.born (Nat.le_refl _)
      refine ⟨fun destroyed => ?_, fun _ => ?_, fun _ => ?_, fun _ => ?_⟩
      · simp [FastrpcFile.mmapAdd, fresh] at destroyed
      · simpa [FastrpcFile.mmapAdd, none] using counted
      · simpa [FastrpcFile.mmapAdd] using counted
      · simpa [FastrpcFile.mmapAdd] using used
    · have old : x < file.born := by
        have bound : x < file.born + 1 := bornX
        omega
      simpa [FastrpcFile.mmapAdd, isNew, Ne.symm isNew] using sound.holds x old
  unborn := fun x late => by
    have bound : file.born + 1 ≤ x := late
    have none := sound.unborn x (by omega)
    have other : file.born ≠ x := by omega
    simp [none, other]
  hashed := fun x hashedX => by
    rcases List.mem_cons.mp hashedX with rfl | old
    · exact ⟨Nat.lt_succ_self _, by simpa [FastrpcFile.mmapAdd] using fresh⟩
    · obtain ⟨bornX, liveX⟩ := sound.hashed x old
      have other : x ≠ file.born := by omega
      exact ⟨Nat.lt_succ_of_lt bornX, by simpa [FastrpcFile.mmapAdd, other] using liveX⟩

/-- A map taken for a remote call is referred to once more. -/
theorem mmapCreate (sound : file.Sound references) {fd attr : BitVec 32} {nomap mapped : Bool}
    (created : file.mmapCreate fd attr va len nomap mapped = (after, some id)) :
    (after.takeCtxRef id).Sound fun x => references x + [some id].count (some x) := by
  unfold FastrpcFile.mmapCreate at created
  split at created
  · next found other same =>
      simp only [Prod.mk.injEq, Option.some.injEq] at created
      obtain ⟨rfl, rfl⟩ := created
      obtain ⟨bornId, live⟩ := sound.mmapFind_live same
      have holds := sound.holds other bornId
      rw [mmapFind_eq same, FastrpcFile.takeCtxRef, FastrpcFile.update_update]
      apply sound.update _ bornId
      · simpa using live
      · have counted := holds.counted live
        have used := holds.used live
        refine ⟨fun destroyed => ?_, fun _ => ?_, fun _ => ?_, fun _ => ?_⟩
        · simp [live] at destroyed
        · simpa using counted
        · simp only [FastrpcFile.update_mmap, if_true]
          omega
        · simp only [FastrpcFile.update_mmap, if_true]
          omega
      · intro x other
        simp [Ne.symm other]
  · next found missed =>
      rw [mmapFind_none missed] at created
      split at created
      · obtain ⟨rfl, rfl⟩ := created
        have merged : (file.mmapAdd (newMmap fd attr va len nomap)).takeCtxRef file.born
            = file.mmapAdd { newMmap fd attr va len nomap with ctxRefs := 1 } := by
          unfold FastrpcFile.takeCtxRef FastrpcFile.update FastrpcFile.mmapAdd newMmap
          simp only [Function.update_idem, Function.update_self]
          split <;> rfl
        rw [merged]
        apply sound.mmapAdd
        · unfold newMmap
          split <;> rfl
        · unfold newMmap
          split
          · simp
          · dsimp only
            split <;> omega
        · unfold newMmap
          split
          · simp
          · split <;> simp
      · simp at created

/-- When no map could be had, nothing has changed. -/
theorem mmapCreate_none {fd attr : BitVec 32} {nomap mapped : Bool}
    (failed : file.mmapCreate fd attr va len nomap mapped = (after, none)) : after = file := by
  unfold FastrpcFile.mmapCreate at failed
  split at failed
  · simp at failed
  · next found missed =>
      split at failed
      · simp at failed
      · simp only [Prod.mk.injEq, and_true] at failed
        rw [← failed, mmapFind_none missed]

/-- Giving a map back is harmless while it has more `refs` than references remain. -/
theorem release (sound : file.Sound references) (same : ∀ x, x ≠ id → now x = references x)
    (bornId : id < file.born) (live : (file.mmap id).freed = false)
    (spare : (now id : Int) < (file.mmap id).refs) : (file.release id).Sound now := by
  have used := (sound.holds id bornId).used live
  unfold FastrpcFile.release FastrpcFile.mmapFree FastrpcFile.dropCtxRef
  simp only [FastrpcFile.update_mmap, if_true, FastrpcFile.update_update]
  by_cases more : 0 < (file.mmap id).refs - 1
  · have notLast : ¬((file.mmap id).refs - 1 = 0 ∧ (file.mmap id).ctxRefs - 1 = 0) := by omega
    rw [if_pos more, if_neg notLast]
    apply sound.update same bornId
    · exact live
    · refine ⟨fun destroyed => ?_, fun _ => ?_, fun _ => ?_, fun _ => ?_⟩
      · simp [live] at destroyed
      · dsimp only
        omega
      · dsimp only
        omega
      · dsimp only
        omega
  · have last : (file.mmap id).refs - 1 = 0 ∧ (file.mmap id).ctxRefs - 1 = 0 := by omega
    have unreferred : now id = 0 := by omega
    rw [if_neg more, if_pos last]
    constructor
    · intro x bornX
      by_cases isId : x = id
      · subst isId
        refine ⟨fun _ => unreferred, ?_, ?_, ?_⟩ <;> simp
      · simpa [FastrpcFile.unhash, isId, same x isId] using sound.holds x bornX
    · intro x late
      have other : x ≠ id := by
        rintro rfl
        exact absurd bornId (Nat.not_lt.mpr late)
      rw [same x other, sound.unborn x late]
    · intro x hashedX
      have kept : x ∈ file.maps ∧ x ≠ id := by simpa [FastrpcFile.unhash] using hashedX
      obtain ⟨bornX, liveX⟩ := sound.hashed x kept.1
      exact ⟨bornX, by simpa [FastrpcFile.unhash, kept.2] using liveX⟩

/-- Giving back every map of an array takes exactly the array's references away. -/
theorem releaseAll {maps : List (Option Nat)}
    (sound : file.Sound fun x => references x + maps.count (some x)) :
    (file.releaseAll maps).Sound references := by
  induction maps generalizing file with
  | nil => simpa [FastrpcFile.releaseAll] using sound
  | cons entry maps ih =>
    cases entry with
    | none => exact ih (by simpa using sound)
    | some id =>
      obtain ⟨bornId, live⟩ := sound.live_of_referred id (by
        simp only [List.count_cons_self]
        omega)
      have counted := (sound.holds id bornId).counted live
      apply ih
      apply sound.release _ bornId live
      · rw [List.count_cons_self] at counted
        omega
      · intro x other
        rw [List.count_cons_of_ne (by simpa using Ne.symm other)]

end FastrpcFile.Sound

end Sm8650.Fastrpc
