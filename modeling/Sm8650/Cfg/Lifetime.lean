import Sm8650.Cfg.Accounts

/-!
# When the users of a store count its references

A lookup adds a user to whatever store it finds by its path. As long as it never
finds one whose count has already dropped to zero, or one whose file has not been
parsed, every store is freed once, after its last reference is gone, and a psoc is
only ever given a store that was parsed.
-/

namespace Sm8650.Cfg

open Data Transition List Option CfgStores

section Runs

variable {υ : Type}

/-- The path that a call is about to look up. -/
def Phase.looksUp : Phase → Option String
  | .getting path => some path
  | _ => none

/-- A lookup finds a usable store or none. -/
def CleanLookup (state : CfgStores υ) (label : Nat × CfgStep υ) : Prop :=
  ∀ psoc ∈ state.psocs[label.1]?, ∀ path ∈ psoc.phase.looksUp, Usable state path

instance (state : CfgStores υ) (label : Nat × CfgStep υ) : Decidable (CleanLookup state label) :=
  inferInstanceAs (Decidable (∀ psoc ∈ state.psocs[label.1]?,
    ∀ path ∈ psoc.phase.looksUp, Usable state path))

/-- The steps whose lookups find usable stores. -/
def cleanStep (υ : Type) : LabelledStep (CfgStores υ) (Nat × CfgStep υ) :=
  fun state label next => CleanLookup state label ∧ cfgStep υ state label next

theorem Sound.psocStep {state next : CfgStores υ} {i : Nat} {psoc : Psoc} {label : CfgStep υ}
    (sound : Sound state) (found : state.psocs[i]? = some psoc)
    (clean : CleanLookup state (i, label))
    (taken : state.psocStep i psoc psoc.ctx psoc.phase label = some next) : Sound next := by
  unfold CfgStores.psocStep at taken
  split at taken
  case h_1 ctx phase => exact some.inj taken ▸ sound.psocCreate found ctx phase _
  case h_2 ctx phase => exact some.inj taken ▸ sound.setPriv found ctx phase _
  case h_3 ctx phase => exact some.inj taken ▸ sound.psocDestroy found ctx phase
  case h_4 ctx phase => exact some.inj taken ▸ sound.psocParse found ctx phase _
  case h_5 path phase =>
      have usable := clean psoc found path (by rw [phase]; rfl)
      exact some.inj taken ▸ sound.storeGet found phase usable
  case h_6 phase => exact some.inj taken ▸ sound.storeAlloc found phase _
  case h_7 phase => exact some.inj taken ▸ sound.parseToStore found phase _ _
  case h_8 phase => exact some.inj taken ▸ sound.setStore found phase
  case h_9 phase => exact some.inj taken ▸ sound.storePut found phase
  case h_10 phase => exact some.inj taken ▸ sound.listRemove found phase
  case h_11 phase => exact some.inj taken ▸ sound.memFree found phase
  case h_12 => cases taken

theorem Sound.step {state next : CfgStores υ} {label : Nat × CfgStep υ} (sound : Sound state)
    (taken : cleanStep υ state label next) : Sound next := by
  obtain ⟨clean, stepped⟩ := taken
  unfold cfgStep CfgStores.step at stepped
  rcases found : state.psocs[label.1]? with _ | psoc
  · rw [found] at stepped
    cases stepped
  · rw [found] at stepped
    exact sound.psocStep found clean stepped

/-- No call is in progress. -/
def Quiet (state : CfgStores υ) : Prop := ∀ psoc ∈ state.psocs, psoc.phase = .idle

/-- The contexts that point to a store. -/
def contexts (state : CfgStores υ) (store : Nat) : Nat :=
  state.psocs.countP fun psoc => psoc.ctx = some store

/-- What the stores should be at all times. -/
structure Kept (state : CfgStores υ) : Prop where
  freedOnce : ∀ store, state.freed store ≤ 1
  unreferenced : ∀ store, state.freed store ≠ 0 →
    store ∉ state.storesList ∧ ∀ psoc ∈ state.psocs, store ∉ psoc.pointers
  users : Quiet state → ∀ store ∈ state.storesList, (state.stores store).users =
    contexts state store + if store = cfgGlobalStore then 1 else 0
  released : Quiet state → ∀ store < state.allocated, store ≠ cfgGlobalStore →
    (contexts state store = 0 ↔ state.freed store = 1)
  parsed : ∀ psoc ∈ state.psocs, psoc.parsed = true →
    ∃ store, psoc.ctx = some store ∧ (state.stores store).parse = .succeeded

theorem refs_of_idle (view : Psoc → List Nat) (psocs : List Psoc) (store : Nat)
    (idle : ∀ psoc ∈ psocs, view psoc = []) : refs view psocs store = 0 := by
  unfold refs
  induction psocs with
  | nil => rfl
  | cons psoc psocs ih =>
    rw [map_cons, held_cons, idle psoc mem_cons_self,
      ih fun other member => idle other (mem_cons_of_mem _ member)]
    rfl

theorem refs_counted_of_idle (psocs : List Psoc) (store : Nat)
    (idle : ∀ psoc ∈ psocs, psoc.phase = .idle) :
    refs Psoc.counted psocs store = psocs.countP fun psoc => psoc.ctx = some store := by
  unfold refs
  induction psocs with
  | nil => rfl
  | cons psoc psocs ih =>
    have own : psoc.counted.count store = if psoc.ctx = some store then 1 else 0 := by
      rw [Psoc.count_counted, idle psoc mem_cons_self]
      rcases psoc.ctx with _ | own
      · rfl
      · simp [Phase.counted, count_singleton]
    rw [map_cons, held_cons, own, ih fun other member => idle other (mem_cons_of_mem _ member),
      countP_cons]
    simp [Nat.add_comm]

theorem Sound.kept {state : CfgStores υ} (sound : Sound state) : Kept state := by
  have account : ∀ store, state.freed store ≠ 0 → store < state.allocated ∧
      refs Psoc.counted state.psocs store = 0 ∧
      refs (fun psoc => psoc.phase.removes) state.psocs store = 0 ∧
      refs (fun psoc => psoc.phase.frees) state.psocs store = 0 ∧ state.freed store = 1 := by
    intro store freed
    have balanced := sound.balanced store
    have inside : store < state.allocated := by
      by_contra outside
      exact freed (balanced.unallocated (Nat.le_of_not_lt outside)).2.2.2.2
    have users := balanced.users inside
    have gone := balanced.gone inside
    by_cases unused : (state.stores store).users = 0
    · rw [if_pos unused] at gone
      omega
    · rw [if_neg unused] at gone
      omega
  constructor
  · intro store
    by_contra more
    have once := (account store (by omega)).2.2.2.2
    omega
  · intro store freed
    obtain ⟨inside, noCounted, noRemoves, noFrees, _⟩ := account store freed
    constructor
    · intro listed
      have open_ := ((sound.balanced store).listed.mp listed).2
      omega
    · exact fun psoc member => not_mem_pointers member noCounted noRemoves noFrees
  · intro quiet store listed
    rw [(sound.balanced store).users ((sound.balanced store).listed.mp listed).1,
      refs_counted_of_idle _ _ quiet]
    rfl
  · intro quiet store inside notGlobal
    have users := (sound.balanced store).users inside
    have gone := (sound.balanced store).gone inside
    have noRemoves := refs_of_idle (fun psoc => psoc.phase.removes) state.psocs store
      fun psoc member => by rw [quiet psoc member]; rfl
    have noFrees := refs_of_idle (fun psoc => psoc.phase.frees) state.psocs store
      fun psoc member => by rw [quiet psoc member]; rfl
    rw [refs_counted_of_idle _ _ quiet] at users
    unfold contexts
    constructor
    · intro none
      rw [if_pos (by omega)] at gone
      omega
    · by_contra some
      rw [if_neg (by omega)] at gone
      omega
  · intro psoc member parsed
    have orderly := sound.orderly psoc member
    obtain ⟨store, ctx⟩ := ne_none_iff_exists'.mp (orderly.parsed parsed)
    refine ⟨store, ctx, orderly.settled store ?_⟩
    rw [Psoc.settled, ctx]
    exact mem_append_left _ (mem_singleton_self _)

/-- In every interleaving of the calls in which no lookup finds a store that is
being freed or was not parsed, the users of a store are its references, each store
is freed once after the last of them, and a psoc has a parsed store. -/
theorem kept_of_reaches {path : String} {values : υ} {count : Nat} {state : CfgStores υ}
    (reached : Reaches (cleanStep υ) (init path values count) state) : Kept state := by
  have sound : Sound state :=
    reached.invariant (sound_init path values count) fun _ _ _ sound taken => sound.step taken
  exact sound.kept

/-! ## Runs on two psocs -/

/-- A step of a clean run, if it can be taken. -/
def CfgStores.cleanNext (state : CfgStores υ) (label : Nat × CfgStep υ) : Option (CfgStores υ) :=
  if CleanLookup state label then state.step label else none

theorem reaches_cleanNext {state final : CfgStores υ} {labels : List (Nat × CfgStep υ)}
    (taken : labels.foldlM cleanNext state = some final) : Reaches (cleanStep υ) state final := by
  refine (Reaches.foldlM taken).mono ?_
  intro source label next stepped
  unfold cleanNext at stepped
  by_cases clean : CleanLookup source label
  · rw [if_pos clean] at stepped
    exact ⟨clean, stepped⟩
  · rw [if_neg clean] at stepped
    cases stepped

end Runs

/-- Two psocs without a context of their own yet. -/
def twoPsocs : CfgStores Unit := init "global.ini" () 2

/-- A psoc is created. -/
def creation (i : Nat) : List (Nat × CfgStep Unit) := [(i, .psocCreate true), (i, .setPriv true)]

/-- `cfg_psoc_parse` of the first psoc that parses the file, up to the copy. -/
def listing (i : Nat) : List (Nat × CfgStep Unit) :=
  [(i, .psocParse "psoc.ini"), (i, .storeGet), (i, .storeAlloc true)]

/-- `cfg_psoc_parse` of a psoc that finds the store. -/
def sharing (i : Nat) : List (Nat × CfgStep Unit) :=
  [(i, .psocParse "psoc.ini"), (i, .storeGet), (i, .setStore), (i, .storePut)]

/-- Both psocs are created, and the first has a store of its own. -/
def ownStore : List (Nat × CfgStep Unit) :=
  creation 0 ++ creation 1 ++ listing 0 ++
    [(0, .parseToStore id true), (0, .setStore), (0, .storePut)]

/-- The second psoc shares that store, and the first one is destroyed. -/
def sharedStore : List (Nat × CfgStep Unit) :=
  ownStore ++ sharing 1 ++ [(0, .psocDestroy), (0, .storePut)]

/-- A store outlives the psoc that parsed it. -/
theorem kept_of_reaches_shared : ∃ state : CfgStores Unit,
    sharedStore.foldlM cleanNext twoPsocs = some state ∧
      (state.stores 1).users = 1 ∧ Kept state := by
  have runs : ((sharedStore.foldlM cleanNext twoPsocs).map
      fun state => (state.stores 1).users) = some 1 := by decide +kernel
  obtain ⟨state, final, users⟩ := map_eq_some_iff.mp runs
  exact ⟨state, final, users, kept_of_reaches (reaches_cleanNext final)⟩

/-- The second psoc finds the store while the first one, which dropped the last
reference, is about to remove it. -/
def lateLookup : List (Nat × CfgStep Unit) :=
  ownStore ++ [(0, .psocDestroy), (0, .storePut), (1, .psocParse "psoc.ini"), (1, .storeGet),
    (0, .listRemove), (0, .memFree), (1, .setStore), (1, .storePut), (1, .psocDestroy),
    (1, .storePut), (1, .listRemove), (1, .memFree)]

/-- The second psoc finds the store before the first one has parsed it, which then
fails. -/
def earlyLookup : List (Nat × CfgStep Unit) :=
  creation 0 ++ creation 1 ++ listing 0 ++ sharing 1 ++
    [(0, .parseToStore id false), (0, .storePut)]

/-- Lookups that come too late or too early: a store is freed twice, and a psoc
whose parse returned success is left with a store whose parse failed. -/
theorem not_kept :
    (∃ state, Reaches (cfgStep Unit) twoPsocs state ∧ state.freed 1 = 2 ∧ ¬ Kept state) ∧
      ∃ state, Reaches (cfgStep Unit) twoPsocs state ∧ Quiet state ∧
        state.psocs[1]? = some ⟨some 1, .idle, true⟩ ∧
        (state.stores 1).parse = .failed ∧ ¬ Kept state := by
  constructor
  · have runs : ((lateLookup.foldlM CfgStores.step twoPsocs).map fun state => state.freed 1) =
        some 2 := by decide +kernel
    obtain ⟨state, final, twice⟩ := map_eq_some_iff.mp runs
    refine ⟨state, Reaches.foldlM final, twice, fun kept => ?_⟩
    have once := kept.freedOnce 1
    omega
  · have runs : ((earlyLookup.foldlM CfgStores.step twoPsocs).map fun state =>
        (state.psocs, (state.stores 1).parse)) =
          some ([⟨some cfgGlobalStore, .idle, false⟩, ⟨some 1, .idle, true⟩], .failed) := by
      decide +kernel
    obtain ⟨state, final, ends⟩ := map_eq_some_iff.mp runs
    obtain ⟨psocs, failed⟩ := Prod.mk.inj ends
    refine ⟨state, Reaches.foldlM final, ?_, ?_, failed, fun kept => ?_⟩
    · intro psoc member
      rw [psocs] at member
      rcases mem_cons.mp member with rfl | second
      · rfl
      · rw [mem_singleton.mp second]
    · rw [psocs]
      rfl
    · obtain ⟨store, ctx, parsed⟩ := kept.parsed ⟨some 1, .idle, true⟩ (by simp [psocs]) rfl
      cases some.inj ctx
      rw [failed] at parsed
      cases parsed

end Sm8650.Cfg
