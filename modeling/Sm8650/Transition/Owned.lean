import Mathlib.Data.List.Nodup
import Sm8650.Transition.Reach

/-!
# Programs that own cells

Threads take cells from a common pool, work on them and put them back or hand them
on. A program is a tree of these operations. Its weakest precondition is about one
thread and the cells it owns; a program that is safe on its own is safe in every
interleaving, because nobody else touches a cell that it owns.
-/

namespace Sm8650.Transition

open Function List

/-- A program over cells with contents in `σ`. `ask` is a choice of the
environment, such as whether memory is granted, and `get` may return nothing. -/
inductive Prog (σ : Type) (α : Type) : Type
  | pure (result : α)
  | ask (next : Bool → Prog σ α)
  | get (next : Option Nat → Prog σ α)
  | put (cell : Nat) (next : Prog σ α)
  | hand (cell : Nat) (next : Prog σ α)
  | read (cell : Nat) (next : σ → Prog σ α)
  | write (cell : Nat) (value : σ) (next : Prog σ α)

namespace Prog

variable {σ α β : Type}

/-- One program after the other. -/
def bind : Prog σ α → (α → Prog σ β) → Prog σ β
  | .pure result, next => next result
  | .ask first, next => .ask fun granted => (first granted).bind next
  | .get first, next => .get fun cell => (first cell).bind next
  | .put cell first, next => .put cell (first.bind next)
  | .hand cell first, next => .hand cell (first.bind next)
  | .read cell first, next => .read cell fun value => (first value).bind next
  | .write cell value first, next => .write cell value (first.bind next)

instance : Monad (Prog σ) where
  pure := Prog.pure
  bind := Prog.bind

/-- The operations as programs. -/
def askFor : Prog σ Bool := .ask .pure

def getCell : Prog σ (Option Nat) := .get .pure

def putCell (cell : Nat) : Prog σ Unit := .put cell (.pure ())

def handCell (cell : Nat) : Prog σ Unit := .hand cell (.pure ())

def readCell (cell : Nat) : Prog σ σ := .read cell .pure

def writeCell (cell : Nat) (value : σ) : Prog σ Unit := .write cell value (.pure ())

/-- What a thread owns: the contents of its cells. -/
abbrev Cells (σ : Type) := Nat → Option σ

/-- The weakest precondition: the program only touches cells it owns, a cell it gets
is cleared and new to it, and at the end `post` holds. -/
def wp (zero : σ) : Prog σ α → Cells σ → (α → Cells σ → Prop) → Prop
  | .pure result, owned, post => post result owned
  | .ask next, owned, post => ∀ granted, (next granted).wp zero owned post
  | .get next, owned, post => (next none).wp zero owned post ∧
      ∀ cell, owned cell = none →
        (next (some cell)).wp zero (Function.update owned cell (some zero)) post
  | .put cell next, owned, post => owned cell ≠ none ∧
      next.wp zero (Function.update owned cell none) post
  | .hand cell next, owned, post => owned cell ≠ none ∧
      next.wp zero (Function.update owned cell none) post
  | .read cell next, owned, post => ∃ value, owned cell = some value ∧
      (next value).wp zero owned post
  | .write cell value next, owned, post => owned cell ≠ none ∧
      next.wp zero (Function.update owned cell (some value)) post

section Rules

variable {zero : σ} {owned : Cells σ} {cell : Nat} {value : σ}

/-- The rule of consequence. -/
theorem wp_mono {prog : Prog σ α} {post weaker : α → Cells σ → Prop}
    (safe : prog.wp zero owned post)
    (implies : ∀ result owned, post result owned → weaker result owned) :
    prog.wp zero owned weaker := by
  induction prog generalizing owned with
  | pure result => exact implies result owned safe
  | ask next ih =>
    exact fun granted => ih granted (safe granted)
  | get next ih =>
    exact ⟨ih none safe.1,
      fun cell unowned => ih (some cell) (safe.2 cell unowned)⟩
  | put cell next ih => exact ⟨safe.1, ih safe.2⟩
  | hand cell next ih => exact ⟨safe.1, ih safe.2⟩
  | read cell next ih =>
    obtain ⟨value, own, rest⟩ := safe
    exact ⟨value, own, ih value rest⟩
  | write cell value next ih => exact ⟨safe.1, ih safe.2⟩

/-- The rule of composition. -/
theorem wp_bind {first : Prog σ α} {next : α → Prog σ β} {post : β → Cells σ → Prop} :
    (first.bind next).wp zero owned post ↔
      first.wp zero owned fun result owned => (next result).wp zero owned post := by
  induction first generalizing owned with
  | pure result => exact Iff.rfl
  | ask first ih =>
    exact forall_congr' fun granted => ih granted
  | get first ih =>
    exact and_congr (ih none) (forall_congr' fun cell => imp_congr_right fun _ => ih (some cell))
  | put cell first ih => exact and_congr_right fun _ => ih
  | hand cell first ih => exact and_congr_right fun _ => ih
  | read cell first ih =>
    exact exists_congr fun value => and_congr_right fun _ => ih value
  | write cell value first ih =>
    exact and_congr_right fun _ => ih

theorem wp_bind' {first : Prog σ α} {next : α → Prog σ β} {post : β → Cells σ → Prop} :
    (first >>= next).wp zero owned post ↔
      first.wp zero owned fun result owned => (next result).wp zero owned post :=
  wp_bind

theorem wp_askFor {post : Bool → Cells σ → Prop} :
    (askFor : Prog σ Bool).wp zero owned post ↔ ∀ granted, post granted owned :=
  Iff.rfl

theorem wp_getCell {post : Option Nat → Cells σ → Prop} :
    (getCell : Prog σ (Option Nat)).wp zero owned post ↔ post none owned ∧
      ∀ cell, owned cell = none → post (some cell) (update owned cell (some zero)) :=
  Iff.rfl

variable {post : Unit → Cells σ → Prop}

section

variable (own : owned cell = some value)

include own

theorem wp_putCell (after : post () (update owned cell none)) :
    (putCell cell : Prog σ Unit).wp zero owned post :=
  ⟨by rw [own]; exact Option.some_ne_none _, after⟩

theorem wp_handCell (after : post () (update owned cell none)) :
    (handCell cell : Prog σ Unit).wp zero owned post :=
  ⟨by rw [own]; exact Option.some_ne_none _, after⟩

theorem wp_readCell {post : σ → Cells σ → Prop}
    (after : post value owned) : (readCell cell : Prog σ σ).wp zero owned post :=
  ⟨value, own, after⟩

theorem wp_writeCell {written : σ} (after : post () (update owned cell (some written))) :
    (writeCell cell written : Prog σ Unit).wp zero owned post :=
  ⟨by rw [own]; exact Option.some_ne_none _, after⟩

end

end Rules

/-! ### Lists of cells -/

/-- Besides `base` the thread has the cells of a list, with contents that satisfy `good`. -/
structure Held (good : σ → Prop) (base : Cells σ) (cells : List Nat) (owned : Cells σ) :
    Prop where
  nodup : cells.Nodup
  fresh : ∀ cell ∈ cells, base cell = none
  held : ∀ cell ∈ cells, ∃ value, owned cell = some value ∧ good value
  others : ∀ cell, cell ∉ cells → owned cell = base cell

namespace Held

variable {good : σ → Prop} {base owned : Cells σ} {cells : List Nat} {cell : Nat} {value : σ}

theorem nil (good : σ → Prop) (base : Cells σ) : Held good base [] base :=
  ⟨nodup_nil, fun _ member => absurd member not_mem_nil,
    fun _ member => absurd member not_mem_nil, fun _ _ => rfl⟩

theorem eq_base (held : Held good base [] owned) : owned = base :=
  funext fun cell => held.others cell not_mem_nil

/-- A cell that is got is put at the front of the list. -/
theorem cons (isGood : good value) (unowned : base cell = none)
    (held : Held good (update base cell (some value)) cells owned) :
    Held good base (cell :: cells) owned := by
  have notListed : cell ∉ cells := fun listed => by
    have fresh := held.fresh cell listed
    rw [update_self] at fresh
    cases fresh
  refine ⟨nodup_cons.mpr ⟨notListed, held.nodup⟩, ?_, ?_, ?_⟩
  · intro other member
    rcases mem_cons.mp member with rfl | listed
    · exact unowned
    · have fresh := held.fresh other listed
      rwa [update_of_ne (ne_of_mem_of_not_mem listed notListed)] at fresh
  · intro other member
    rcases mem_cons.mp member with rfl | listed
    · refine ⟨value, ?_, isGood⟩
      rw [held.others other notListed, update_self]
    · exact held.held other listed
  · intro other notMember
    rw [mem_cons, not_or] at notMember
    rw [held.others other notMember.2, update_of_ne notMember.1]

/-- A cell that is got is put at the end of the list. -/
theorem concat (held : Held good base cells owned) (unowned : owned cell = none)
    (isGood : good value) : Held good base (cells ++ [cell]) (update owned cell (some value)) := by
  have notListed : cell ∉ cells := fun listed => by
    obtain ⟨_, own, _⟩ := held.held cell listed
    rw [unowned] at own
    cases own
  have different : ∀ other ∈ cells, other ≠ cell := fun other listed =>
    ne_of_mem_of_not_mem listed notListed
  refine ⟨?_, ?_, ?_, ?_⟩
  · refine nodup_append.mpr ⟨held.nodup, nodup_singleton _, ?_⟩
    intro other listed last isLast
    rw [mem_singleton.mp isLast]
    exact different other listed
  · intro other member
    rcases mem_append.mp member with listed | last
    · exact held.fresh other listed
    · rw [mem_singleton.mp last, ← held.others cell notListed]
      exact unowned
  · intro other member
    rcases mem_append.mp member with listed | last
    · rw [update_of_ne (different other listed)]
      exact held.held other listed
    · rw [mem_singleton.mp last]
      exact ⟨value, update_self _ _ _, isGood⟩
  · intro other notMember
    rw [mem_append, mem_singleton, not_or] at notMember
    rw [update_of_ne notMember.2, held.others other notMember.1]

/-- A cell beside the list. -/
theorem own (held : Held good (update base cell (some value)) cells owned) :
    cell ∉ cells ∧ owned cell = some value := by
  have notListed : cell ∉ cells := fun listed => by
    have fresh := held.fresh cell listed
    rw [update_self] at fresh
    cases fresh
  exact ⟨notListed, by rw [held.others cell notListed, update_self]⟩

theorem fresh_beside (held : Held good (update base cell (some value)) cells owned) :
    ∀ other ∈ cells, base other = none := by
  intro other listed
  have fresh := held.fresh other listed
  rwa [update_of_ne (ne_of_mem_of_not_mem listed held.own.1)] at fresh

/-- The cell beside the list is written, or given away. -/
theorem update (held : Held good (update base cell (some value)) cells owned) (content : Option σ) :
    Held good (update base cell content) cells (update owned cell content) := by
  have different : ∀ other ∈ cells, other ≠ cell := fun other listed =>
    ne_of_mem_of_not_mem listed held.own.1
  refine ⟨held.nodup, ?_, ?_, ?_⟩
  · intro other listed
    rw [update_of_ne (different other listed)]
    exact held.fresh_beside other listed
  · intro other listed
    rw [update_of_ne (different other listed)]
    exact held.held other listed
  · intro other notListed
    by_cases same : other = cell
    · rw [same, update_self, update_self]
    · rw [update_of_ne same, update_of_ne same, held.others other notListed, update_of_ne same]

/-- A loop that gives away every cell of the list. -/
theorem wp_loop {zero : σ} {one : Nat → Prog σ Unit} {loop : List Nat → Prog σ Unit}
    (nil : loop [] = Pure.pure ())
    (cons : ∀ cell cells, loop (cell :: cells) = one cell >>= fun _ => loop cells)
    (gives : ∀ cell value owned, owned cell = some value → good value →
      (one cell).wp zero owned fun _ after => after = Function.update owned cell none)
    (held : Held good base cells owned) :
    (loop cells).wp zero owned fun _ after => after = base := by
  induction cells generalizing owned with
  | nil =>
    rw [nil]
    exact held.eq_base
  | cons cell cells ih =>
    obtain ⟨notListed, nodup⟩ := nodup_cons.mp held.nodup
    obtain ⟨value, own, isGood⟩ := held.held cell mem_cons_self
    rw [cons, wp_bind']
    refine wp_mono (gives cell value owned own isGood) ?_
    rintro _ _ rfl
    apply ih
    refine ⟨nodup, fun other listed => held.fresh other (mem_cons_of_mem _ listed), ?_, ?_⟩
    · intro other listed
      rw [Function.update_of_ne (ne_of_mem_of_not_mem listed notListed)]
      exact held.held other (mem_cons_of_mem _ listed)
    · intro other outside
      by_cases same : other = cell
      · rw [same, Function.update_self, held.fresh cell mem_cons_self]
      · rw [Function.update_of_ne same]
        exact held.others other fun member =>
          (mem_cons.mp member).elim same outside

end Held

end Prog

/-! ## The pool and the threads -/

/-- The operations of a pool; `get` is told whether memory is granted. -/
structure CellPool (π σ : Type) where
  get : π → Bool → Option Nat × π
  put : π → Nat → π
  read : π → Nat → σ
  write : π → Nat → σ → π

/-- What the threads rely on: of a valid pool, a cell that is got was free and is
cleared, a cell that is put is free, and cells in use keep their contents. -/
structure CellPool.Lawful {π σ : Type} (ops : CellPool π σ) (zero : σ) (valid : π → Prop)
    (free : π → Nat → Prop) : Prop where
  get_none : ∀ {pool granted after}, valid pool → ops.get pool granted = (none, after) →
    valid after ∧ (∀ cell, free after cell ↔ free pool cell) ∧
      ∀ cell, ¬ free pool cell → ops.read after cell = ops.read pool cell
  get_some : ∀ {pool granted cell after}, valid pool →
    ops.get pool granted = (some cell, after) →
      valid after ∧ free pool cell ∧ (∀ other, free after other ↔ free pool other ∧ other ≠ cell) ∧
        ops.read after cell = zero ∧
        ∀ other, ¬ free pool other → ops.read after other = ops.read pool other
  put : ∀ {pool cell}, valid pool → ¬ free pool cell →
    valid (ops.put pool cell) ∧
      (∀ other, free (ops.put pool cell) other ↔ free pool other ∨ other = cell) ∧
      ∀ other, ¬ free pool other → other ≠ cell →
        ops.read (ops.put pool cell) other = ops.read pool other
  write : ∀ {pool cell value}, valid pool → ¬ free pool cell →
    valid (ops.write pool cell value) ∧
      (∀ other, free (ops.write pool cell value) other ↔ free pool other) ∧
      ops.read (ops.write pool cell value) cell = value ∧
      ∀ other, other ≠ cell → ops.read (ops.write pool cell value) other = ops.read pool other

/-- Who has a cell. -/
inductive Owner
  | pool
  | thread (i : Nat)
  | consumer
  deriving DecidableEq, Repr

/-- The pool, what is left of each thread's program, and who has which cell. -/
structure World (π σ : Type) where
  pool : π
  threads : Nat → Prog σ Unit
  owner : Nat → Owner

/-- The next operation of a thread, an idle thread starts a program, or a consumer
puts a cell back that was handed to it. -/
inductive WorldStep (σ : Type)
  | run (i : Nat) (granted : Bool)
  | spawn (i : Nat) (prog : Prog σ Unit)
  | consume (cell : Nat)

namespace World

variable {π σ : Type}

/-- The rest of a thread's program. -/
def setThread (world : World π σ) (i : Nat) (prog : Prog σ Unit) : World π σ :=
  { world with threads := Function.update world.threads i prog }

/-- A cell changes hands. -/
def setOwner (world : World π σ) (cell : Nat) (owner : Owner) : World π σ :=
  { world with owner := Function.update world.owner cell owner }

/-- One operation of the thread. -/
def run (ops : CellPool π σ) (world : World π σ) (i : Nat) (granted : Bool) : Option (World π σ) :=
  match world.threads i with
  | .pure _ => none
  | .ask next => some (world.setThread i (next granted))
  | .get next =>
    match ops.get world.pool granted with
    | (none, pool) => some ({ world with pool := pool }.setThread i (next none))
    | (some cell, pool) =>
      some (({ world with pool := pool }.setOwner cell (.thread i)).setThread i (next (some cell)))
  | .put cell next =>
    some (({ world with pool := ops.put world.pool cell }.setOwner cell .pool).setThread i next)
  | .hand cell next => some ((world.setOwner cell .consumer).setThread i next)
  | .read cell next => some (world.setThread i (next (ops.read world.pool cell)))
  | .write cell value next =>
    some ({ world with pool := ops.write world.pool cell value }.setThread i next)

/-- The thread has nothing to do. -/
def Idle (world : World π σ) (i : Nat) : Prop := world.threads i = .pure ()

end World

/-- The interleavings of programs that `allowed` admits. -/
inductive WorldNext {π σ : Type} (ops : CellPool π σ) (allowed : Prog σ Unit → Prop) :
    World π σ → WorldStep σ → World π σ → Prop
  | run {world next : World π σ} {i : Nat} {granted : Bool}
      (taken : world.run ops i granted = some next) :
      WorldNext ops allowed world (.run i granted) next
  | spawn {world : World π σ} {i : Nat} {prog : Prog σ Unit} (idle : world.Idle i)
      (admitted : allowed prog) :
      WorldNext ops allowed world (.spawn i prog) (world.setThread i prog)
  | consume {world : World π σ} {cell : Nat} (handed : world.owner cell = .consumer) :
      WorldNext ops allowed world (.consume cell)
        ({ world with pool := ops.put world.pool cell }.setOwner cell .pool)

/-- Fewer programs, fewer interleavings. -/
theorem WorldNext.mono {π σ : Type} {ops : CellPool π σ} {allowed wider : Prog σ Unit → Prop}
    (included : ∀ prog, allowed prog → wider prog) {world next : World π σ} {step : WorldStep σ}
    (taken : WorldNext ops allowed world step next) : WorldNext ops wider world step next := by
  cases taken with
  | run ran => exact .run ran
  | spawn idle admitted => exact .spawn idle (included _ admitted)
  | consume handed => exact .consume handed

/-- What a thread is about to recycle, hand over, read or write is its own, and a
thread that is done has nothing left. -/
def NextOwned {π σ : Type} (world : World π σ) (i : Nat) : Prop :=
  match world.threads i with
  | .pure _ => ∀ cell, world.owner cell ≠ .thread i
  | .ask _ | .get _ => True
  | .put cell _ | .hand cell _ | .read cell _ | .write cell _ _ => world.owner cell = .thread i

/-! ## Safety in every interleaving -/

section Safety

variable {π σ : Type} {ops : CellPool π σ} {zero : σ} {valid : π → Prop} {free : π → Nat → Prop}

/-- A program that starts with nothing, is safe and ends with nothing. -/
def Safe (zero : σ) (prog : Prog σ Unit) : Prop :=
  prog.wp zero (fun _ => none) fun _ owned => ∀ cell, owned cell = none

/-- The cells of a thread. -/
def World.owned (ops : CellPool π σ) (world : World π σ) (i : Nat) : Prog.Cells σ :=
  fun cell => if world.owner cell = .thread i then some (ops.read world.pool cell) else none

/-- Every thread is safe with what it owns, and the pool has what nobody owns. -/
structure Secure (ops : CellPool π σ) (zero : σ) (valid : π → Prop) (free : π → Nat → Prop)
    (world : World π σ) : Prop where
  valid : valid world.pool
  free : ∀ cell, free world.pool cell ↔ world.owner cell = .pool
  safe : ∀ i, (world.threads i).wp zero (world.owned ops i) fun _ owned =>
    ∀ cell, owned cell = none

variable {world : World π σ}

theorem World.owned_eq_none {i cell : Nat} :
    world.owned ops i cell = none ↔ world.owner cell ≠ .thread i := by
  unfold World.owned
  by_cases own : world.owner cell = .thread i
  · simp [own]
  · simp [own]

theorem World.owner_of_owned {i cell : Nat} (own : world.owned ops i cell ≠ none)
    : world.owner cell = .thread i := by
  by_contra other
  exact own (World.owned_eq_none.mpr other)

theorem Secure.nextOwned (secure : Secure ops zero valid free world) (i : Nat)
    : NextOwned world i := by
  have safe := secure.safe i
  unfold NextOwned
  rcases rest : world.threads i with _ | _ | _ | ⟨cell, next⟩ | ⟨cell, next⟩ | ⟨cell, next⟩ |
    ⟨cell, value, next⟩
  all_goals rw [rest] at safe
  · exact fun cell => World.owned_eq_none.mp (safe cell)
  · trivial
  · trivial
  · exact World.owner_of_owned safe.1
  · exact World.owner_of_owned safe.1
  · obtain ⟨value, own, _⟩ := safe
    exact World.owner_of_owned (by rw [own]; exact Option.some_ne_none _)
  · exact World.owner_of_owned safe.1

section Frame

variable {world next : World π σ} {i : Nat}

/-- A thread keeps what it owns if nobody took or wrote its cells. -/
theorem World.owned_eq (sameOwner : ∀ cell, next.owner cell = .thread i ↔
      world.owner cell = .thread i) (sameRead : ∀ cell, world.owner cell = .thread i →
      ops.read next.pool cell = ops.read world.pool cell) :
    next.owned ops i = world.owned ops i := by
  funext cell
  unfold World.owned
  by_cases own : world.owner cell = .thread i
  · rw [if_pos own, if_pos ((sameOwner cell).mpr own), sameRead cell own]
  · rw [if_neg own, if_neg fun now => own ((sameOwner cell).mp now)]

/-- A thread gains, loses or writes one cell. -/
theorem World.owned_update {cell : Nat} {content : Option σ}
    (here : next.owned ops i cell = content) (sameOwner : ∀ other, other ≠ cell →
      (next.owner other = .thread i ↔ world.owner other = .thread i))
    (sameRead : ∀ other, other ≠ cell → world.owner other = .thread i →
      ops.read next.pool other = ops.read world.pool other) :
    next.owned ops i = update (world.owned ops i) cell content := by
  funext other
  by_cases same : other = cell
  · subst same
    rw [update_self]
    exact here
  · rw [update_of_ne same]
    unfold World.owned
    by_cases own : world.owner other = .thread i
    · rw [if_pos own, if_pos ((sameOwner other same).mpr own), sameRead other same own]
    · rw [if_neg own, if_neg fun now => own ((sameOwner other same).mp now)]

section

variable (secure : Secure ops zero valid free world)

include secure

/-- A step of one thread, as far as the others are concerned. -/
theorem Secure.of_step {prog : Prog σ Unit} (stillValid : valid next.pool)
    (stillFree : ∀ cell, free next.pool cell ↔ next.owner cell = .pool)
    (threads : next.threads = update world.threads i prog)
    (own : prog.wp zero (next.owned ops i) fun _ owned => ∀ cell, owned cell = none)
    (others : ∀ j, j ≠ i → next.owned ops j = world.owned ops j) :
    Secure ops zero valid free next := by
  refine ⟨stillValid, stillFree, fun j => ?_⟩
  rw [threads]
  by_cases same : j = i
  · subst same
    rw [update_self]
    exact own
  · rw [update_of_ne same, others j same]
    exact secure.safe j

/-- What a thread owns is not free. -/
theorem Secure.not_free {cell : Nat} {owner : Owner}
    (own : world.owner cell = owner) (inUse : owner ≠ .pool) : ¬ free world.pool cell := by
  rw [secure.free, own]
  exact inUse

theorem Secure.setThread {prog : Prog σ Unit}
    (own : prog.wp zero (world.owned ops i) fun _ owned => ∀ cell, owned cell = none) :
    Secure ops zero valid free (world.setThread i prog) :=
  secure.of_step secure.valid secure.free rfl own fun _ _ => rfl

end

/-- A cell goes back to the pool, from a thread or from a consumer. -/
theorem Secure.put (lawful : ops.Lawful zero valid free)
    (secure : Secure ops zero valid free world) {cell : Nat} {owner : Owner}
    (own : world.owner cell = owner) (inUse : owner ≠ .pool) :
    valid (ops.put world.pool cell) ∧
      (∀ other, free (ops.put world.pool cell) other ↔
        (world.setOwner cell .pool).owner other = .pool) ∧
      ∀ j, ({ world with pool := ops.put world.pool cell }.setOwner cell .pool).owned ops j =
        update (world.owned ops j) cell none := by
  obtain ⟨stillValid, freed, same⟩ := lawful.put secure.valid (secure.not_free own inUse)
  refine ⟨stillValid, fun other => ?_, fun j => ?_⟩
  · rw [freed other, secure.free other]
    by_cases here : other = cell
    · subst here
      simp [World.setOwner]
    · simp [World.setOwner, here]
  · refine World.owned_update ?_ (fun other there => ?_) (fun other there owned => ?_)
    · simp [World.owned, World.setOwner]
    · simp [World.setOwner, there]
    · exact same other (secure.not_free owned (by simp)) there

/-- Nobody but the owner of a cell has it among his cells. -/
theorem World.update_owned_of_ne {cell j : Nat} (own : world.owner cell = .thread i)
    (other : j ≠ i) : update (world.owned ops j) cell none = world.owned ops j := by
  refine update_eq_self_iff.mpr (Eq.symm (World.owned_eq_none.mpr ?_))
  rw [own]
  exact fun same => other (Owner.thread.inj same).symm

/-- One operation of a thread keeps the world secure. -/
theorem Secure.run (lawful : ops.Lawful zero valid free)
    (secure : Secure ops zero valid free world) {granted : Bool}
    (taken : world.run ops i granted = some next) : Secure ops zero valid free next := by
  have safe := secure.safe i
  unfold World.run at taken
  cases rest : world.threads i with
  | pure result =>
    rw [rest] at taken
    cases taken
  | ask after =>
    rw [rest] at taken safe
    cases taken
    exact secure.setThread (safe granted)
  | get after =>
    rw [rest] at taken safe
    rcases got : ops.get world.pool granted with ⟨_ | cell, pool⟩
    · simp only [got] at taken
      cases taken
      obtain ⟨stillValid, freed, same⟩ := lawful.get_none secure.valid got
      have kept : ∀ j, World.owned ops { world with pool := pool } j = world.owned ops j :=
        fun j => World.owned_eq (fun _ => Iff.rfl)
          fun cell own => same cell (secure.not_free own (by simp))
      refine secure.of_step stillValid (fun cell => ?_) rfl ?_ fun j _ => kept j
      · exact (freed cell).trans (secure.free cell)
      · have now := safe.1
        rw [← kept i] at now
        exact now
    · simp only [got] at taken
      cases taken
      obtain ⟨stillValid, wasFree, freed, cleared, same⟩ := lawful.get_some secure.valid got
      have inPool : world.owner cell = .pool := (secure.free cell).mp wasFree
      have moved : ∀ j, j ≠ i →
          World.owned ops ({ world with pool := pool }.setOwner cell (.thread i)) j =
            world.owned ops j := by
        refine fun j other => World.owned_eq (fun other' => ?_) fun other' own =>
          same other' (secure.not_free own (by simp))
        by_cases here : other' = cell
        · subst here
          simp [World.setOwner, inPool, Ne.symm other]
        · simp [World.setOwner, here]
      have gained : World.owned ops ({ world with pool := pool }.setOwner cell (.thread i)) i =
          update (world.owned ops i) cell (some zero) := by
        refine World.owned_update ?_ (fun other there => ?_) fun other there own =>
          same other (secure.not_free own (by simp))
        · simp [World.owned, World.setOwner, cleared]
        · simp [World.setOwner, there]
      refine secure.of_step stillValid (fun other => ?_) rfl ?_ moved
      · refine (freed other).trans ?_
        by_cases here : other = cell
        · subst here
          simp [World.setOwner, World.setThread]
        · simp [World.setOwner, World.setThread, here, secure.free]
      · have now := safe.2 cell (World.owned_eq_none.mpr (by rw [inPool]; simp))
        rw [← gained] at now
        exact now
  | put cell after =>
    rw [rest] at taken safe
    cases taken
    have own := World.owner_of_owned safe.1
    obtain ⟨stillValid, freed, owned⟩ := secure.put lawful own (by simp)
    refine secure.of_step stillValid freed rfl ?_ fun j other => ?_
    · have now := safe.2
      rw [← owned i] at now
      exact now
    · exact (owned j).trans (World.update_owned_of_ne own other)
  | hand cell after =>
    rw [rest] at taken safe
    cases taken
    have own := World.owner_of_owned safe.1
    have owned : ∀ j, (world.setOwner cell .consumer).owned ops j =
        update (world.owned ops j) cell none := by
      refine fun j => World.owned_update ?_ (fun other there => ?_) fun _ _ _ => rfl
      · simp [World.owned, World.setOwner]
      · simp [World.setOwner, there]
    refine secure.of_step secure.valid (fun other => ?_) rfl ?_ fun j other => ?_
    · by_cases here : other = cell
      · subst here
        simp [World.setOwner, World.setThread, secure.free, own]
      · simp [World.setOwner, World.setThread, here, secure.free]
    · have now := safe.2
      rw [← owned i] at now
      exact now
    · exact (owned j).trans (World.update_owned_of_ne own other)
  | read cell after =>
    rw [rest] at taken safe
    cases taken
    obtain ⟨value, own, now⟩ := safe
    have content : value = ops.read world.pool cell := by
      have his := World.owner_of_owned (own ▸ Option.some_ne_none value)
      unfold World.owned at own
      rw [if_pos his] at own
      exact (Option.some.inj own).symm
    rw [content] at now
    exact secure.setThread now
  | write cell value after =>
    rw [rest] at taken safe
    cases taken
    have own := World.owner_of_owned safe.1
    obtain ⟨stillValid, freed, written, same⟩ :=
      @lawful.write _ cell value secure.valid (secure.not_free own (by simp))
    have owned : World.owned ops { world with pool := ops.write world.pool cell value } i =
        update (world.owned ops i) cell (some value) := by
      refine World.owned_update ?_ (fun _ _ => Iff.rfl) fun other there _ => same other there
      simp [World.owned, own, written]
    refine secure.of_step stillValid (fun other => ?_) rfl ?_ fun j other => ?_
    · exact (freed other).trans (secure.free other)
    · have now := safe.2
      rw [← owned] at now
      exact now
    · refine World.owned_eq (fun _ => Iff.rfl) fun other' his => same other' fun here => ?_
      subst here
      have thread := his.symm.trans own
      exact other (Owner.thread.inj thread)

/-- A step of the interleaving keeps the world secure. -/
theorem Secure.step (lawful : ops.Lawful zero valid free) {step : WorldStep σ}
    (secure : Secure ops zero valid free world)
    (taken : WorldNext ops (Safe zero) world step next) : Secure ops zero valid free next := by
  cases taken with
  | run ran => exact secure.run lawful ran
  | @spawn i prog idle admitted =>
    refine secure.setThread ?_
    have nothing : world.owned ops i = fun _ => none := by
      have done := secure.safe i
      rw [idle] at done
      exact funext done
    rw [nothing]
    exact admitted
  | @consume cell handed =>
    obtain ⟨stillValid, freed, owned⟩ := secure.put lawful handed (by simp)
    refine ⟨stillValid, freed, fun j => ?_⟩
    have kept : update (world.owned ops j) cell none = world.owned ops j :=
      update_eq_self_iff.mpr (Eq.symm (World.owned_eq_none.mpr (by rw [handed]; simp)))
    rw [owned j, kept]
    exact secure.safe j

end Frame

/-- The initial worlds: the threads are idle and nobody owns a cell. -/
structure World.Initial (valid : π → Prop) (free : π → Nat → Prop) (world : World π σ) :
    Prop where
  valid : valid world.pool
  free : ∀ cell, free world.pool cell
  owner : ∀ cell, world.owner cell = .pool
  idle : ∀ i, world.Idle i

theorem World.Initial.secure (initial : world.Initial valid free) :
    Secure ops zero valid free world where
  valid := initial.valid
  free cell := iff_of_true (initial.free cell) (initial.owner cell)
  safe i := by
    rw [initial.idle i]
    exact fun cell => World.owned_eq_none.mpr (by rw [initial.owner cell]; simp)

/-- Programs that are safe on their own are safe in every interleaving. -/
theorem World.Initial.nextOwned (lawful : ops.Lawful zero valid free) {world now : World π σ}
    (initial : world.Initial valid free)
    (reached : Reaches (WorldNext ops (Safe zero)) world now) (i : Nat) : NextOwned now i := by
  have secure : Secure ops zero valid free now :=
    reached.invariant initial.secure fun _ _ _ secure taken => secure.step lawful taken
  exact secure.nextOwned i

end Safety

end Sm8650.Transition
