import Sm8650.Kgsl.PageMap

/-!
# Bind workers on one virtual buffer

Several workers may bind and unbind ranges of one buffer at the same time. The interval
tree is changed under a lock, and what a bind or an unbind takes out of it is unmapped
there too; but the new mapping of a bind is installed when the lock has been released.
-/

namespace Sm8650.Kgsl

open Data Transition Function

/-- A bind that is in the tree and has not been mapped yet. -/
structure PendingMap where
  start : Nat
  last : Nat
  entry : Nat
  childOffset : Nat
  deriving DecidableEq, Repr

/-- A worker: the call of `kgsl_mmu_map_child` that it is about to make, and the operations
that are left. -/
structure Worker where
  pending : Option PendingMap
  todo : List BindOp
  deriving DecidableEq, Repr

/-- A worker that is not in progress. -/
def Worker.idle : Worker := ⟨none, []⟩

/-- A buffer and its workers. -/
structure BindSystem (τ : Type) where
  memdesc : Memdesc
  workers : τ → Worker

/-- The next section of a worker or its next call outside. -/
def Worker.advance (memdesc : Memdesc) (worker : Worker) : Memdesc × Worker :=
  match worker.pending, worker.todo with
  | some map, todo =>
    (memdesc.mapRange map.start map.last map.entry map.childOffset, ⟨none, todo⟩)
  | none, .bind start last entry childOffset :: todo =>
    (memdesc.insertRange start last entry, ⟨some ⟨start, last, entry, childOffset⟩, todo⟩)
  | none, .unbind start last entry :: todo => (memdesc.removeRange start last entry, ⟨none, todo⟩)
  | none, [] => (memdesc, .idle)

/-- Operations are given to an idle worker, or a worker goes on. -/
inductive BindEvent (τ : Type)
  | schedule (i : τ) (ops : List BindOp)
  | advance (i : τ)
  deriving DecidableEq, Repr

variable {τ : Type} [DecidableEq τ]

namespace BindSystem

/-- One step. -/
def step (system : BindSystem τ) : BindEvent τ → BindSystem τ
  | .schedule i ops =>
    if system.workers i = .idle then
      { system with workers := update system.workers i ⟨none, ops⟩ }
    else system
  | .advance i =>
    let result := (system.workers i).advance system.memdesc
    ⟨result.1, update system.workers i result.2⟩

/-- A new buffer without workers in progress. -/
def new (size : Nat) (noMapZero : Bool) : BindSystem τ where
  memdesc := .new size noMapZero
  workers _ := .idle

/-- The child that the tree has for a page. -/
def owner (system : BindSystem τ) (page : Nat) : Option Nat :=
  entryAt system.memdesc.ranges (page * pageSize)

/-- A worker is about to map the page to its child in the tree. -/
def AwaitedFrom (system : BindSystem τ) (page : Nat) (i : τ) : Prop :=
  ∃ map ∈ (system.workers i).pending, InRange map.start map.last page
    ∧ system.owner page = some map.entry

instance (system : BindSystem τ) (page : Nat) (i : τ) :
    Decidable (system.AwaitedFrom page i) :=
  match found : (system.workers i).pending with
  | none => .isFalse fun ⟨_, among, _⟩ => by rw [found] at among; cases among
  | some map =>
    decidable_of_iff (InRange map.start map.last page ∧ system.owner page = some map.entry)
      ⟨fun awaited => ⟨map, found, awaited⟩, fun ⟨other, among, awaited⟩ => by
        rw [found] at among
        cases among
        exact awaited⟩

/-- What is scheduled is valid; and a worker maps a page to a child only if the tree still
has that child for it, or another worker is about to map it to the one that the tree
has. -/
def MapsWhatIsBound (system : BindSystem τ) : BindEvent τ → Prop
  | .schedule _ ops => ∀ op ∈ ops, op.Valid system.memdesc.size
  | .advance i => ∀ map ∈ (system.workers i).pending, ∀ page < map.last / pageSize + 1,
      InRange map.start map.last page →
        system.owner page = some map.entry ∨ ∃ other, other ≠ i ∧ system.AwaitedFrom page other

/-- Every page is mapped to a child if and only if an interval of that child has it. -/
def Mapped (system : BindSystem τ) : Prop :=
  ∀ page child, (∃ offset, system.memdesc.pagetable page = .child child offset)
    ↔ ∃ node ∈ system.memdesc.ranges, node.entry = child
      ∧ node.start ≤ page * pageSize ∧ (page + 1) * pageSize ≤ node.last + 1

/-! ## The invariant -/

/-- The page is mapped to its child in the tree, or to none. -/
def Settled (system : BindSystem τ) (page : Nat) : Prop :=
  ∀ child, (∃ offset, system.memdesc.pagetable page = .child child offset)
    ↔ system.owner page = some child

/-- A page that is not settled is about to be. -/
structure Sound (system : BindSystem τ) : Prop where
  tiled : system.memdesc.Tiled
  valid : ∀ i, ∀ op ∈ (system.workers i).todo, op.Valid system.memdesc.size
  proper : ∀ i, ∀ map ∈ (system.workers i).pending, map.start ≤ map.last
  pages : ∀ page, system.Settled page ∨ ∃ i, system.AwaitedFrom page i

variable {system : BindSystem τ}

variable {i : τ}

/-- A page at which neither the tree nor the page table changes stays settled or awaited,
unless it is taken off the worker that maps it. -/
theorem Sound.keep_page (sound : system.Sound) {memdesc : Memdesc} {worker : Worker} {page : Nat}
    (sameOwner : entryAt memdesc.ranges (page * pageSize) = system.owner page)
    (sameMapping : memdesc.pagetable page = system.memdesc.pagetable page)
    (apart : ∀ map ∈ (system.workers i).pending, ¬InRange map.start map.last page) :
    (BindSystem.mk memdesc (update system.workers i worker)).Settled page
      ∨ ∃ other, (BindSystem.mk memdesc (update system.workers i worker)).AwaitedFrom
          page other := by
  rcases sound.pages page with settled | ⟨other, map, pending, inRange, isOwner⟩
  · left
    intro child
    show (∃ offset, memdesc.pagetable page = _) ↔ entryAt memdesc.ranges _ = _
    rw [sameMapping, sameOwner]
    exact settled child
  · right
    have isOther : other ≠ i := by
      rintro rfl
      exact apart map pending inRange
    refine ⟨other, map, ?_, inRange, sameOwner.trans isOwner⟩
    show map ∈ (update system.workers i worker other).pending
    rwa [update_of_ne isOther]

/-- The workers have valid operations left if they had and the new one has. -/
theorem valid_update {size : Nat} (valid : ∀ j, ∀ op ∈ (system.workers j).todo, op.Valid size)
    {worker : Worker} (validWorker : ∀ op ∈ worker.todo, op.Valid size) :
    ∀ j, ∀ op ∈ (update system.workers i worker j).todo, op.Valid size := by
  intro j op among
  rw [update_apply] at among
  split_ifs at among with same
  · exact validWorker op among
  · exact valid j op among

theorem proper_update (proper : ∀ j, ∀ map ∈ (system.workers j).pending, map.start ≤ map.last)
    {worker : Worker} (properWorker : ∀ map ∈ worker.pending, map.start ≤ map.last) :
    ∀ j, ∀ map ∈ (update system.workers i worker j).pending, map.start ≤ map.last := by
  intro j map among
  rw [update_apply] at among
  split_ifs at among with same
  · exact properWorker map among
  · exact proper j map among

theorem Sound.schedule (sound : system.Sound) {ops : List BindOp} (idle : system.workers i = .idle)
    (valid : ∀ op ∈ ops, op.Valid system.memdesc.size) : { system with workers :=update system.workers i ⟨none, ops⟩ }.Sound where
  tiled := sound.tiled
  valid := valid_update sound.valid valid
  proper := proper_update sound.proper fun map among => absurd among nofun
  pages page := by
    apply sound.keep_page rfl rfl
    rw [idle]
    exact fun map among => absurd among nofun

variable {todo : List BindOp}

/-- The section of a bind: its pages are awaited from the worker. -/
theorem Sound.insertRange (sound : system.Sound) {start last entry childOffset : Nat}
    (worker : system.workers i = ⟨none, .bind start last entry childOffset :: todo⟩) :
    (BindSystem.mk (system.memdesc.insertRange start last entry)
      (update system.workers i ⟨some ⟨start, last, entry, childOffset⟩, todo⟩)).Sound := by
  have valid := sound.valid i (.bind start last entry childOffset)
    (by rw [worker]; exact List.mem_cons_self)
  obtain ⟨tiled, owner⟩ := sound.tiled.insertRange valid
  constructor
  · exact tiled
  · apply valid_update sound.valid
    intro op among
    exact sound.valid i op (by rw [worker]; exact List.mem_cons_of_mem _ among)
  · apply proper_update sound.proper
    intro map isMap
    cases isMap
    exact valid.1
  · intro page
    by_cases inRange : InRange start last page
    · right
      refine ⟨i, ⟨start, last, entry, childOffset⟩, ?_, inRange, ?_⟩
      · show _ ∈ (update system.workers i _ i).pending
        rw [update_self]
        rfl
      · exact (owner page).trans (if_pos inRange)
    · apply sound.keep_page
      · exact (owner page).trans (if_neg inRange)
      · exact (Memdesc.insertRange_eq sound.tiled.ordered valid.1 entry).2 page inRange
      · rw [worker]
        exact fun map among => absurd among nofun

/-- An unbind: the pages of what it drops are settled. -/
theorem Sound.removeRange (sound : system.Sound) {start last : Nat} {entry : Option Nat}
    (worker : system.workers i = ⟨none, .unbind start last entry :: todo⟩) :
    (BindSystem.mk (system.memdesc.removeRange start last entry)
      (update system.workers i ⟨none, todo⟩)).Sound := by
  have mappings := (@Memdesc.removeRange_eq _ start last sound.tiled.ordered entry).2
  have owners := @Memdesc.Tiled.entryAt_removeRange _ start last sound.tiled entry
  constructor
  · exact sound.tiled.removeRange entry
  · apply valid_update sound.valid
    intro op among
    exact sound.valid i op (by rw [worker]; exact List.mem_cons_of_mem _ among)
  · apply proper_update sound.proper
    exact fun map among => absurd among nofun
  · intro page
    by_cases hit : ∃ node ∈ system.memdesc.ranges, Memdesc.Dropped start last entry node
        ∧ node.covers (page * pageSize) = true
    · left
      intro child
      show (∃ offset, (system.memdesc.removeRange start last entry).pagetable page = _)
        ↔ entryAt (system.memdesc.removeRange start last entry).ranges (page * pageSize) = _
      rw [mappings, owners, if_pos hit, if_pos hit]
      unfold Memdesc.blank
      constructor
      · rintro ⟨offset, mapped⟩
        split_ifs at mapped
      · exact fun none => absurd none nofun
    · apply sound.keep_page
      · exact (owners page).trans (if_neg hit)
      · exact (mappings page).trans (if_neg hit)
      · rw [worker]
        exact fun map among => absurd among nofun

/-- The mapping of a bind: a page is settled if the tree still has the child for it, and
awaited from another worker otherwise. -/
theorem Sound.mapRange (sound : system.Sound) {map : PendingMap}
    (worker : system.workers i = ⟨some map, todo⟩) (bound : system.MapsWhatIsBound (.advance i)) :
    (BindSystem.mk
      (system.memdesc.mapRange map.start map.last map.entry map.childOffset)
      (update system.workers i ⟨none, todo⟩)).Sound := by
  have pending : map ∈ (system.workers i).pending := by
    rw [worker]
    rfl
  have isMapped := fun page => @pageIn_iff map.start map.last page (sound.proper i map pending)
  constructor
  · exact ⟨sound.tiled.ordered, sound.tiled.inside, sound.tiled.aligned⟩
  · apply valid_update sound.valid
    intro op among
    exact sound.valid i op (by rw [worker]; exact among)
  · apply proper_update sound.proper
    exact fun other among => absurd among nofun
  · intro page
    by_cases inRange : InRange map.start map.last page
    · have below : page < map.last / pageSize + 1 := by
        unfold InRange pageSize at inRange
        unfold pageSize
        omega
      rcases bound map pending page below inRange with
        isOwner | ⟨other, isOther, later, isPending, alsoInRange, isOwner⟩
      · left
        intro child
        show (∃ offset, mapChild _ _ _ _ _ page = _) ↔ system.owner page = _
        rw [isOwner, mapChild, if_pos ((isMapped page).mpr inRange)]
        constructor
        · rintro ⟨offset, same⟩
          rw [(Mapping.child.inj same).1]
        · intro same
          exact ⟨_, by rw [Option.some.inj same]⟩
      · right
        refine ⟨other, later, ?_, alsoInRange, isOwner⟩
        show later ∈ (update system.workers i _ other).pending
        rwa [update_of_ne isOther]
    · apply sound.keep_page
      · rfl
      · exact if_neg fun mapped => inRange ((isMapped page).mp mapped)
      · rw [worker]
        rintro other ⟨⟩
        exact inRange

theorem Sound.step (sound : system.Sound) {event : BindEvent τ}
    (bound : system.MapsWhatIsBound event) : (system.step event).Sound := by
  cases event with
  | schedule i ops =>
    unfold BindSystem.step
    dsimp only
    split_ifs with idle
    · exact sound.schedule idle bound
    · exact sound
  | advance i =>
    cases worker : system.workers i with
    | mk pending todo =>
      show (BindSystem.mk ((system.workers i).advance system.memdesc).1
        (update system.workers i ((system.workers i).advance system.memdesc).2)).Sound
      rw [worker]
      cases pending with
      | some map => exact sound.mapRange worker bound
      | none =>
        cases todo with
        | nil =>
          show (BindSystem.mk system.memdesc (update system.workers i ⟨none, []⟩)).Sound
          rw [← worker, update_eq_self]
          exact sound
        | cons op todo =>
          cases op with
          | bind start last entry childOffset => exact sound.insertRange worker
          | unbind start last entry => exact sound.removeRange worker

omit [DecidableEq τ] in
theorem sound_new (size : Nat) (noMapZero : Bool) :
    (BindSystem.new size noMapZero : BindSystem τ).Sound where
  tiled := Memdesc.tiled_new size noMapZero
  valid _ _ among := absurd among List.not_mem_nil
  proper _ _ among := absurd among nofun
  pages page := by
    left
    intro child
    constructor
    · rintro ⟨offset, mapped⟩
      change (if noMapZero then Mapping.unmapped else .zeroPage) = _ at mapped
      split_ifs at mapped
    · exact fun none => absurd none nofun

/-- In every run in which a worker maps a page to a child only if the tree still has that
child for it, or another worker is about to map it to the one that the tree has, the page
table agrees with the tree whenever no worker is in progress. -/
theorem mapped_of_mapsWhatIsBound {size : Nat} {noMapZero : Bool} {final : BindSystem τ}
    (run : Reaches (guarded MapsWhatIsBound step) (new size noMapZero) final)
    (quiet : ∀ i, final.workers i = .idle) : final.Mapped := by
  have sound : final.Sound := by
    apply run.invariant (sound_new size noMapZero)
    rintro system event next sound ⟨bound, rfl⟩
    exact sound.step bound
  intro page child
  rw [← sound.tiled.entryAt_eq_some_iff]
  rcases sound.pages page with settled | ⟨i, map, pending, _⟩
  · exact settled child
  · rw [quiet i] at pending
    exact absurd pending nofun

/-- Two workers and a buffer of four pages. -/
def sampleBuffer : BindSystem (Fin 2) :=
  new 16384 true

/-- One worker binds two pages while the other one binds and unbinds another one. -/
def sampleEvents : List (BindEvent (Fin 2)) :=
  [.schedule 0 [.bind 0 8191 5 0], .schedule 1 [.bind 8192 12287 6 0, .unbind 8192 12287 none],
    .advance 0, .advance 1, .advance 1, .advance 0, .advance 1]

theorem mapped_sampleEvents : (sampleEvents.foldl step sampleBuffer).Mapped := by
  have allowed : Allowed MapsWhatIsBound step sampleBuffer sampleEvents := by
    refine ⟨(by decide : ∀ op ∈ [BindOp.bind 0 8191 5 0], op.Valid 16384),
      (by decide : ∀ op ∈ [BindOp.bind 8192 12287 6 0, .unbind 8192 12287 none],
        op.Valid 16384), ?_⟩
    refine ⟨fun map pending => absurd pending nofun, fun map pending => absurd pending nofun, ?_⟩
    refine ⟨?_, ?_, fun map pending => absurd pending nofun, trivial⟩
    · rintro map ⟨⟩ page below _
      revert page
      decide +kernel
    · rintro map ⟨⟩ page below _
      revert page
      decide +kernel
  exact mapped_of_mapsWhatIsBound (Reaches.foldl allowed) (by decide +kernel)

/-- A page is unbound between the two halves of its bind, and stays mapped. -/
def overtakingEvents : List (BindEvent (Fin 2)) :=
  [.schedule 0 [.bind 0 4095 5 0], .schedule 1 [.unbind 0 4095 none],
    .advance 0, .advance 1, .advance 0]

theorem not_mapped :
    ¬∀ (size : Nat) (noMapZero : Bool) (final : BindSystem (Fin 2)),
      Reaches (guarded (fun system event => match event with
        | .schedule _ ops => ∀ op ∈ ops, op.Valid system.memdesc.size
        | .advance _ => True) step) (new size noMapZero) final →
      (∀ i, final.workers i = .idle) → final.Mapped := by
  intro mapped
  have wrong := mapped 16384 true (overtakingEvents.foldl step sampleBuffer)
    (Reaches.foldl ⟨by decide +kernel, by decide +kernel, trivial, trivial, trivial, trivial⟩)
    (by decide +kernel) 0 5
  obtain ⟨node, among, _⟩ := wrong.mp ⟨0, by decide +kernel⟩
  exact absurd among List.not_mem_nil

end BindSystem

end Sm8650.Kgsl
