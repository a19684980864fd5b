import Sm8650.Rmnet.Produced

/-!
# CPUs that share a pool

Any number of CPUs deaggregate buffers and handle the frames, on the pool of one port.
No descriptor is recycled, handed over, read or written by a CPU that does not have it,
as long as no frame is among those whose descriptor the handler recycles twice.
-/

namespace Sm8650.Rmnet

open Transition List

/-- `RMNET_FRAG_DESCRIPTOR_POOL_SIZE` -/
def rmnetFragDescriptorPoolSize : Nat := 64

/-- `rmnet_descriptor_init`. -/
def rmnetDescriptorInit (dataFormat : BitVec 32) : Port where
  dataFormat := dataFormat
  freeList := range rmnetFragDescriptorPoolSize
  poolSize := rmnetFragDescriptorPoolSize
  descs := fun _ => .zero
  allocs := fun _ => true
  requests := 0

/-- What a CPU runs: the handler of a buffer that is deaggregated into frames. -/
def IngressProgram (port : IngressPort) (prog : Handler Unit) : Prop :=
  ∃ contents, (∀ content ∈ contents, Produced port content) ∧
    prog = Handler.rmnetFragIngressHandler port contents

/-- The buffer has no frame whose descriptor is recycled twice. -/
def SparingProgram (port : IngressPort) (prog : Handler Unit) : Prop :=
  ∃ contents, (∀ content ∈ contents, Produced port content ∧ ¬ RecycledTwice port content) ∧
    prog = Handler.rmnetFragIngressHandler port contents

theorem SparingProgram.safe {port : IngressPort} {prog : Handler Unit}
    (sparing : SparingProgram port prog) : Safe .zero prog := by
  obtain ⟨contents, good, rfl⟩ := sparing
  exact safe_rmnetFragIngressHandler fun content member =>
    ⟨(good content member).1.frameDescriptor, (good content member).2⟩

/-- In every interleaving of CPUs that get no such frame, what a CPU recycles, hands over,
reads or writes next is its own, and a CPU that is done has nothing left. -/
theorem descriptors_owned {port : IngressPort} {world now : World Port FragDescriptor}
    (initial : world.Initial Port.WellFormed FromPool)
    (reached : Reaches (WorldNext portPool (SparingProgram port)) world now) (i : Nat) :
    NextOwned now i :=
  initial.nextOwned lawful_portPool
    (reached.mono fun _ _ _ taken => taken.mono fun _ sparing => sparing.safe) i

/-! ## Two CPUs -/

theorem wellFormed_rmnetDescriptorInit (dataFormat : BitVec 32) :
    (rmnetDescriptorInit dataFormat).WellFormed :=
  ⟨nodup_range, fun _ member => mem_range.mp member, fun _ _ => rfl⟩

/-- The system before anything is received. -/
def idleWorld (dataFormat : BitVec 32) : World Port FragDescriptor where
  pool := rmnetDescriptorInit dataFormat
  threads := fun _ => .pure ()
  owner := fun _ => .pool

theorem initial_idleWorld (dataFormat : BitVec 32) :
    (idleWorld dataFormat).Initial Port.WellFormed FromPool where
  valid := wellFormed_rmnetDescriptorInit dataFormat
  free cell := (Nat.lt_or_ge cell rmnetFragDescriptorPoolSize).imp mem_range.mpr
    fun beyond => beyond
  owner _ := rfl
  idle _ := rfl

/-- A page with a data packet behind a checksum header; `pad` of its two bytes are
padding. -/
def paddedPages (pad : Byte) : Pages := fun _ off =>
  [0x40 ||| pad, 1, 0, 2, 4, 0x80, 0, 0, 0xAA, 0xBB].getD off 0

/-- A port that receives checksum headers. -/
def paddedPort (pad : Byte) : IngressPort where
  pages := paddedPages pad
  dataFormat := rmnetPrivFlagsIngressMapCksumv5
  rmnetGetEndpoint := fun _ => some 0
  groHw := fun _ => true
  rxcsum := fun _ => true
  pageSize := fun _ => 4096
  checksumPkt := fun _ => ⟨0, 0, 0, none⟩
  validateCsum := fun _ => false

/-- The descriptor of the packet. -/
def paddedDesc : FragDescriptor := { FragDescriptor.zero with frags := [⟨0, 0, 10⟩], len := 10 }

/-- The buffer with the packet. -/
def paddedSkb : Skb where
  frags := [⟨0, 0, 10⟩]
  fits := by decide

theorem produced_of_ends {pad : Byte}
    (ends : (Deaggregation.rmnetFragDeaggregate (paddedPages pad) paddedSkb 0 11
      ⟨rmnetDescriptorInit rmnetPrivFlagsIngressMapCksumv5, []⟩ 0).map
        (fun state => (state.list, state.port.descs 0)) = some ([0], paddedDesc)) :
    Produced (paddedPort pad) paddedDesc := by
  obtain ⟨state, returned, same⟩ := Option.map_eq_some_iff.mp ends
  obtain ⟨list, desc⟩ := Prod.mk.inj same
  refine ⟨paddedSkb, 0, _, 11, state, 0, wellFormed_rmnetDescriptorInit _, rfl, returned, ?_, desc⟩
  rw [list]
  exact mem_cons_self

/-- Two CPUs have received so many of these packets each. -/
def twoCpus (pad : Byte) (first second : Nat) : World Port FragDescriptor :=
  ((idleWorld rmnetPrivFlagsIngressMapCksumv5).setThread 0
    (Handler.rmnetFragIngressHandler (paddedPort pad) (replicate first paddedDesc))).setThread 1
      (Handler.rmnetFragIngressHandler (paddedPort pad) (replicate second paddedDesc))

/-- The descriptor that a program recycles next. -/
def nextPut : Handler Unit → Option Nat
  | .put desc _ => some desc
  | _ => none

theorem owner_of_nextPut {world : World Port FragDescriptor} {i desc : Nat}
    (recycles : nextPut (world.threads i) = some desc) (nextOwned : NextOwned world i) :
    world.owner desc = .thread i := by
  unfold NextOwned at nextOwned
  rcases rest : world.threads i with _ | _ | _ | ⟨cell, next⟩ | _ | _ | _
  all_goals
    rw [rest] at recycles nextOwned
    cases recycles
  exact nextOwned

/-- The CPUs take turns as a list says, and all memory is granted. -/
def runSchedule : World Port FragDescriptor → List Nat → Option (World Port FragDescriptor)
  | world, [] => some world
  | world, i :: schedule => (world.run portPool i true).bind (runSchedule · schedule)

theorem reaches_of_schedule {allowed : Handler Unit → Prop} {world now : World Port FragDescriptor}
    {schedule : List Nat} (taken : runSchedule world schedule = some now) :
    Reaches (WorldNext portPool allowed) world now := by
  induction schedule generalizing world with
  | nil =>
    cases taken
    exact Reaches.refl _ _
  | cons i schedule ih =>
    obtain ⟨middle, first, rest⟩ := Option.bind_eq_some_iff.mp taken
    exact ((Reaches.refl _ _).tail (.run first)).trans (ih rest)

theorem reaches_twoCpus {allowed : Handler Unit → Prop} {pad : Byte} {first second : Nat}
    (admitted : ∀ count, allowed
      (Handler.rmnetFragIngressHandler (paddedPort pad) (replicate count paddedDesc))) :
    Reaches (WorldNext portPool allowed) (idleWorld rmnetPrivFlagsIngressMapCksumv5)
      (twoCpus pad first second) :=
  ((Reaches.refl _ _).tail (.spawn rfl (admitted first))).tail (.spawn rfl (admitted second))

/-- The first CPU recycles the descriptor of a packet that is all padding, the second
takes it for its last frame, and the first is about to recycle it again. -/
theorem not_descriptors_owned :
    ∃ now, Reaches (WorldNext portPool (IngressProgram (paddedPort 2)))
        (idleWorld rmnetPrivFlagsIngressMapCksumv5) now ∧
      now.owner 0 = .thread 1 ∧ ¬ NextOwned now 0 := by
  have produced : Produced (paddedPort 2) paddedDesc := produced_of_ends (by decide +kernel)
  have ends : (runSchedule (twoCpus 2 1 64)
      (replicate 10 0 ++ replicate 126 1 ++ [0, 1])).map
        (fun now => (nextPut (now.threads 0), now.owner 0)) =
          some (some 0, .thread 1) := by decide +kernel
  obtain ⟨now, taken, same⟩ := Option.map_eq_some_iff.mp ends
  obtain ⟨recycles, owner⟩ := Prod.mk.inj same
  refine ⟨now, (reaches_twoCpus fun count => ?_).trans (reaches_of_schedule taken), owner, ?_⟩
  · refine ⟨_, fun content member => ?_, rfl⟩
    rw [eq_of_mem_replicate member]
    exact produced
  · intro nextOwned
    have own := owner_of_nextPut recycles nextOwned
    rw [owner] at own
    cases own

/-- Two CPUs with a packet each, of whose two bytes one is padding. -/
theorem descriptors_owned_twoCpus :
    ∃ now, Reaches (WorldNext portPool (SparingProgram (paddedPort 1)))
        (idleWorld rmnetPrivFlagsIngressMapCksumv5) now ∧
      now.owner 0 = .thread 0 ∧ now.owner 1 = .thread 1 ∧ NextOwned now 0 ∧ NextOwned now 1 := by
  have produced : Produced (paddedPort 1) paddedDesc := produced_of_ends (by decide +kernel)
  have type : (((paddedDesc.bytes (paddedPort 1).pages).getD mapHeaderSize 0 >>> 1).toNat =
      rmnetMapHeaderTypeCsumOffload) := by decide
  have once : ¬ RecycledTwice (paddedPort 1) paddedDesc := by
    rintro (⟨_, _, all⟩ | ⟨_, header, _, _⟩ | ⟨_, header, _, _, _⟩)
    · exact absurd all (by decide)
    · exact absurd (type.symm.trans header.type) (by decide)
    · exact absurd (type.symm.trans header.type) (by decide)
  have ends : (runSchedule (twoCpus 1 1 1) (replicate 8 0 ++ replicate 8 1)).map
        (fun now => (now.owner 0, now.owner 1)) = some (.thread 0, .thread 1) := by decide +kernel
  obtain ⟨now, taken, same⟩ := Option.map_eq_some_iff.mp ends
  obtain ⟨first, second⟩ := Prod.mk.inj same
  have reached : Reaches (WorldNext portPool (SparingProgram (paddedPort 1)))
      (idleWorld rmnetPrivFlagsIngressMapCksumv5) now := by
    refine (reaches_twoCpus fun count => ⟨_, fun content member => ?_, rfl⟩).trans
      (reaches_of_schedule taken)
    rw [eq_of_mem_replicate member]
    exact ⟨produced, once⟩
  exact ⟨now, reached, first, second, descriptors_owned (initial_idleWorld _) reached 0,
    descriptors_owned (initial_idleWorld _) reached 1⟩

end Sm8650.Rmnet
