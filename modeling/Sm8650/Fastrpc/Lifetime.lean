import Sm8650.Fastrpc.Invocation

/-!
# Lifetime of the maps of a FastRPC process

Every section of an invocation keeps the balance between `refs` and the references
from the `maps` arrays, with one exception: what is released on account of the
`fdlist` was not necessarily taken for a handle. The balance is kept in every run
whose `fdlist` entries release only references that no `maps` array counts on.
-/

namespace Sm8650.Fastrpc

open List Transition

/-! ## Sections -/

namespace FastrpcFile.Sound

variable {file : FastrpcFile} {references : Nat → Nat}

/-- The handles' section either ends with a reference for every entry it made, or
leaves none behind. -/
theorem getHandles {mapped : Nat → Bool} {i : Nat} {handles : List RemoteHandle}
    {taken : List (Option Nat)} (sound : file.Sound fun x => references x + taken.count (some x)) :
    (∀ after, file.getHandles mapped i handles taken = (after, none) → after.Sound references)
      ∧ ∀ after made, file.getHandles mapped i handles taken = (after, some made) →
        after.Sound fun x => references x + made.count (some x) := by
  induction handles generalizing file i taken with
  | nil =>
    refine ⟨fun after failed => ?_, fun after made ended => ?_⟩
    · simp [FastrpcFile.getHandles] at failed
    · obtain ⟨rfl, rfl⟩ := ended
      exact sound
  | cons handle handles ih =>
    unfold FastrpcFile.getHandles
    split
    · split
      · next found failed =>
          rw [mmapCreate_none failed]
          refine ⟨fun after ended => ?_, fun after made ended => ?_⟩
          · simp only [Prod.mk.injEq, and_true] at ended
            exact ended ▸ sound.releaseAll
          · simp at ended
      · next found id created =>
          apply ih
          refine (sound.mmapCreate created).mono fun x => ?_
          rw [count_append]
          omega
    · apply ih
      refine sound.mono fun x => ?_
      simp

end FastrpcFile.Sound

/-- Every entry of the `fdlist` that names a map finds one with more `refs` than
references. -/
def FdlistSpare (references : Nat → Nat) : FastrpcFile → List (BitVec 64) → Prop
  | _, [] => True
  | file, entry :: fdlist =>
    entry = 0 ∨
      match file.mmapFind (entry.truncate 32) 0 0 false with
      | (_, none) => FdlistSpare references file fdlist
      | (_, some id) =>
        (references id : Int) < (file.mmap id).refs
          ∧ FdlistSpare references (file.release id) fdlist

/-- An `fdlist` that names spare references only keeps the balance. -/
theorem FastrpcFile.Sound.putFdlist {file : FastrpcFile} {references : Nat → Nat}
    {fdlist : List (BitVec 64)} (sound : file.Sound references)
    (spare : FdlistSpare references file fdlist) : (file.putFdlist fdlist).Sound references := by
  induction fdlist generalizing file with
  | nil => exact sound
  | cons entry fdlist ih =>
    unfold FastrpcFile.putFdlist
    by_cases isZero : entry = 0
    · rw [if_pos isZero]
      exact sound
    · rw [if_neg isZero]
      have found := spare.resolve_left isZero
      split
      · next after missed =>
          rw [missed] at found
          exact ih sound found
      · next after id present =>
          rw [present] at found
          obtain ⟨bornId, live⟩ := sound.mmapFind_live present
          exact ih (sound.release (fun _ _ => rfl) bornId live found.1) found.2

namespace InvokeCtx

/-- `put_args` of the invocation has come to the `fdlist`. -/
def AtFdlist (ctx : InvokeCtx) : Prop :=
  ∃ i, ctx.stage = .putArgs i ∧ ctx.maps.length ≤ i

/-- References of the other invocations together with those of this one. -/
def Balanced (rest : Nat → Nat) (result : FastrpcFile × InvokeCtx) : Prop :=
  result.1.Sound fun x => rest x + result.2.references.count (some x)

variable {rest : Nat → Nat} {file : FastrpcFile} {ctx : InvokeCtx}

theorem count_references (ctx : InvokeCtx) (x : Nat) :
    ctx.references.count (some x) = ctx.maps.count (some x) + ctx.handleMaps.count (some x) :=
  count_append

section

variable (before : Balanced rest (file, ctx))

include before

theorem balanced_getBuf {i : Nat} {arg : RemoteBuf}
    {mapped : Bool} : Balanced rest (ctx.getBuf file i arg mapped) := by
  unfold getBuf
  split
  · split
    · next after failed =>
        rw [FastrpcFile.Sound.mmapCreate_none failed]
        exact before
    · next after id created =>
        refine (before.mmapCreate created).mono fun x => ?_
        simp only [count_references]
        by_cases inside : i < ctx.maps.length
        · rw [count_set inside, count_singleton]
          split <;> split <;> omega
        · rw [set_eq_of_length_le (Nat.le_of_not_lt inside)]
          omega
  · exact before

theorem balanced_getHandles {cap : Bool}
    {mapped : Nat → Bool} : Balanced rest (ctx.getHandles cap file mapped) := by
  have dropped : file.Sound fun x =>
      (rest x + ctx.maps.count (some x)) + ([] : List (Option Nat)).count (some x) := by
    refine before.mono fun x => ?_
    simp only [count_references, count_nil]
    omega
  obtain ⟨failure, success⟩ := dropped.getHandles
  unfold getHandles
  dsimp only
  split
  · next after failed =>
      refine (failure after failed).mono fun x => ?_
      simp [count_references, leaveHandles]
  · next after made ended =>
      refine (success after made ended).mono fun x => ?_
      simp only [count_references]
      omega

theorem balanced_putBuf {i : Nat}
    {entry : Option Nat} (isEntry : ctx.maps[i]? = some entry) {copied : Bool} :
    Balanced rest (ctx.putBuf file i entry copied) := by
  cases entry with
  | none => exact before
  | some id =>
    obtain ⟨inside, atIndex⟩ := List.getElem?_eq_some_iff.mp isEntry
    have present : 0 < ctx.maps.count (some id) :=
      List.count_pos_iff.mpr (atIndex ▸ List.getElem_mem inside)
    have removed : ∀ x, (ctx.maps.set i none).count (some x)
        = ctx.maps.count (some x) - if x = id then 1 else 0 := by
      intro x
      rw [List.count_set inside, atIndex]
      by_cases same : x = id
      · simp [same]
      · simp [same, Ne.symm same]
    obtain ⟨bornId, live⟩ := before.live_of_referred id (by
      simp only [count_references]
      omega)
    have counted := (before.holds id bornId).counted live
    simp only [count_references] at counted
    unfold putBuf Balanced
    simp only [count_references, removed]
    apply before.release _ bornId live
    · rw [if_pos rfl]
      dsimp only
      omega
    · intro x other
      rw [if_neg other, count_references, Nat.sub_zero]

theorem balanced_putFdlist {fdlist : List (BitVec 64)}
    (spare : FdlistSpare (fun x => rest x + ctx.leaveHandles.references.count (some x)) file
      (fdlist.take mFdlist)) : Balanced rest (ctx.putFdlist file fdlist) := by
  have dropped : file.Sound fun x =>
      rest x + ctx.leaveHandles.references.count (some x) := by
    refine before.mono fun x => ?_
    simp only [count_references, leaveHandles, count_nil]
    omega
  exact dropped.putFdlist spare

theorem balanced_contextFree : Balanced rest (ctx.contextFree file) := by
  have dropped : file.Sound fun x => rest x + ctx.maps.count (some x) := by
    refine before.mono fun x => ?_
    simp only [count_references]
    omega
  refine dropped.releaseAll.mono fun x => ?_
  simp [contextFree, count_references, leaveHandles]

/-- Every section keeps the balance, the `fdlist` under its condition. -/
theorem balanced_advance {cap : Bool} {outcome : Outcome} (spare : ctx.AtFdlist →
      FdlistSpare (fun x => rest x + ctx.leaveHandles.references.count (some x)) file
        (outcome.fdlist.take mFdlist)) : Balanced rest (ctx.advance cap file outcome) := by
  unfold advance
  split
  · split
    · exact balanced_getBuf before
    · exact balanced_getHandles before
  · exact before
  · next i atPut =>
      split
      · next entry isEntry => exact balanced_putBuf before isEntry
      · next past =>
          exact balanced_putFdlist before (spare ⟨i, atPut, getElem?_eq_none_iff.mp past⟩)
  · exact balanced_contextFree before
  · exact before

end

end InvokeCtx

/-! ## Runs -/

namespace Process

/-- The `fdlist` of the event, when it is read, names spare references only: every
entry that finds a map finds one with more `refs` than the `maps` arrays of the
unfinished invocations refer to it, the entries of this invocation's handles apart. -/
def SpareOnly (process : Process) : Event → Prop
  | .advance i outcome =>
    ∀ ctx, process.ctxs[i]? = some ctx → ctx.AtFdlist →
      FdlistSpare (process.put i (process.file, ctx.leaveHandles)).references process.file
        (outcome.fdlist.take mFdlist)
  | _ => True

/-- No destroyed map is referred to, and every other map has a reference counted for
every entry that refers to it. -/
def KeepsMaps (process : Process) : Prop :=
  ∀ id < process.file.born,
    ((process.file.mmap id).freed = true → process.references id = 0)
      ∧ ((process.file.mmap id).freed = false →
        (process.references id : Int) ≤ (process.file.mmap id).refs)

/-- The invariant of a run. -/
def Balanced (process : Process) : Prop :=
  process.file.Sound process.references

variable {process : Process}

theorem Balanced.keepsMaps (balanced : process.Balanced) : process.KeepsMaps :=
  fun id bornId => ⟨(balanced.holds id bornId).gone, (balanced.holds id bornId).counted⟩

/-- What one invocation refers to, apart from what all the others do. -/
theorem exists_rest {i : Nat} {ctx : InvokeCtx} (running : process.ctxs[i]? = some ctx) :
    ∃ rest : Nat → Nat,
      (process.references = fun x => rest x + ctx.references.count (some x))
        ∧ ∀ result : FastrpcFile × InvokeCtx, (process.put i result).references
          = fun x => rest x + result.2.references.count (some x) := by
  have found : (process.ctxs.map InvokeCtx.references)[i]? = some ctx.references := by
    rw [getElem?_map, running, Option.map_some]
  obtain ⟨rest, before, after⟩ := Data.exists_rest_of_getElem? found
  refine ⟨fun x => rest (some x), ?_, fun result => ?_⟩
  · funext x
    rw [references, before]
  · funext x
    rw [references, put, map_set, after]

theorem Balanced.step (balanced : process.Balanced) {event : Event}
    (spare : process.SpareOnly event) : (process.step event).Balanced := by
  cases event with
  | invoke inbufs outbufs handles =>
    refine FastrpcFile.Sound.mono balanced fun x => ?_
    simp [Process.step, references, InvokeCtx.alloc, InvokeCtx.references, count_replicate]
  | advance i outcome =>
    unfold Process.step
    dsimp only
    split
    · exact balanced
    · next ctx running =>
        obtain ⟨rest, before, after⟩ := exists_rest running
        have kept : InvokeCtx.Balanced rest
            (ctx.advance process.dmaHandleReverseRpcCap process.file outcome) := by
          apply InvokeCtx.balanced_advance
          · unfold Process.Balanced at balanced
            rwa [before] at balanced
          · intro atFdlist
            have named := spare ctx running atFdlist
            rwa [after] at named
        unfold Process.Balanced
        rw [after]
        exact kept
  | giveUp i =>
    unfold Process.step
    dsimp only
    split
    · exact balanced
    · next ctx running =>
        split
        · exact balanced
        · obtain ⟨rest, before, after⟩ := exists_rest running
          unfold Process.Balanced at balanced ⊢
          rw [after]
          rw [before] at balanced
          exact balanced

/-- A process whose maps have been made by other means and that has no invocation
yet. -/
structure Idle (process : Process) : Prop where
  noCtx : process.ctxs = []
  sound : process.file.Sound fun _ => 0

theorem Idle.balanced (idle : process.Idle) : process.Balanced := by
  refine idle.sound.mono fun x => ?_
  rw [references, idle.noCtx]
  exact Nat.le_refl 0

/-- In every run whose `fdlist` entries release spare references only, a map is
destroyed only when no unfinished invocation refers to it, and until then its `refs`
cover the references to it. -/
theorem keepsMaps_of_spareOnly {initial final : Process} (idle : initial.Idle)
    (run : Reaches (guarded SpareOnly Process.step) initial final) :
    final.KeepsMaps := by
  have balanced : final.Balanced := by
    apply run.invariant idle.balanced
    rintro state label next balanced ⟨spare, rfl⟩
    exact balanced.step spare
  exact balanced.keepsMaps

/-- A process without maps. -/
def opened : Process where
  file := { mmap := fun _ => default, born := 0, maps := [] }
  dmaHandleReverseRpcCap := false
  ctxs := []

theorem idle_opened : opened.Idle where
  noCtx := rfl
  sound := ⟨fun _ born => absurd born (Nat.not_lt_zero _), fun _ _ => rfl,
    fun _ hashed => absurd hashed not_mem_nil⟩

/-- Everything can be mapped and copied, and the remote side releases these
descriptors. -/
def releasing (fdlist : List (BitVec 64)) : Outcome where
  mapped := fun _ => true
  copied := true
  fdlist := fdlist

/-- One call with a handle that the remote side releases. -/
def sampleEvents : List Event :=
  [.invoke [] [] [⟨7, 0⟩], .advance 0 (releasing []), .advance 0 (releasing []),
    .advance 0 (releasing [7])]

theorem allowed_sampleEvents : Allowed SpareOnly Process.step opened sampleEvents := by
  refine ⟨trivial, ?_, ?_, ?_, trivial⟩
  · rintro ctx running ⟨i, atPut, -⟩
    cases running
    cases atPut
  · rintro ctx running ⟨i, atPut, -⟩
    cases running
    cases atPut
  · rintro ctx running -
    cases running
    exact Or.inr ⟨by decide +kernel, trivial⟩

theorem keepsMaps_sampleEvents : (sampleEvents.foldl Process.step opened).KeepsMaps :=
  keepsMaps_of_spareOnly idle_opened (Reaches.foldl allowed_sampleEvents)

/-- A buffer at address zero, which an `fdlist` entry can name. -/
def sharedBuf : RemoteBuf := ⟨5, 0, 0, 4096⟩

/-- Two calls with the same output buffer, the first of which is answered with the
buffer's descriptor in the `fdlist`. -/
def overlappingEvents : List Event :=
  [.invoke [] [sharedBuf] [], .invoke [] [sharedBuf] [], .advance 0 (releasing []),
    .advance 1 (releasing []), .advance 0 (releasing []), .advance 0 (releasing []),
    .advance 0 (releasing []), .advance 0 (releasing [5])]

/-- The map is destroyed under the second call. -/
theorem not_keepsMaps :
    ¬∀ initial final : Process, initial.Idle →
      Reaches (guarded (fun _ _ => True) Process.step) initial final →
      final.KeepsMaps := by
  intro keeps
  have kept := keeps opened _ idle_opened
    (Reaches.foldl (Allowed.always Process.step opened overlappingEvents))
  have unreferred := (kept 0 (by decide +kernel)).1 (by decide +kernel)
  exact absurd unreferred (by decide +kernel)

end Process

end Sm8650.Fastrpc
