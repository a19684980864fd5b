import Sm8650.Cfg.Store

/-!
# The accounts of the stores

Every store has an account: its users are the references of the contexts and of the
calls, and once there are none left one call takes it off the list and frees it. A
step keeps all accounts, as long as a lookup finds a store whose account is open and
whose file was parsed.
-/

namespace Sm8650.Cfg

open Data Transition Function List Phase CfgStores

/-! ## What a call refers to -/

namespace Phase

/-- The references that are counted among the users. -/
def counted : Phase → List Nat
  | .creating => [cfgGlobalStore]
  | .filling store | .adopting store | .putting store _ => [store]
  | _ => []

/-- The store that a call is about to remove from the list. -/
def removes : Phase → List Nat
  | .removing store _ => [store]
  | _ => []

/-- The store that a call is about to free. -/
def frees : Phase → List Nat
  | .freeing store _ => [store]
  | _ => []

/-- The store that a call is about to parse. -/
def fills : Phase → List Nat
  | .filling store => [store]
  | _ => []

/-- The store that a call is about to make the one of its psoc. -/
def adopts : Phase → List Nat
  | .adopting store => [store]
  | _ => []

/-- The call is `cfg_psoc_parse`, about to return success. -/
def succeeds : Phase → Bool
  | .putting _ ok | .removing _ ok | .freeing _ ok => ok
  | _ => false

/-- `cfg_psoc_parse` has not changed the context yet. -/
def parses : Phase → Bool
  | .getting _ | .allocating _ | .filling _ | .adopting _ => true
  | _ => false

end Phase

namespace Psoc

/-- The counted references of a psoc and its call. -/
def counted (psoc : Psoc) : List Nat := psoc.ctx.toList ++ psoc.phase.counted

/-- The stores that a psoc has or is about to get. -/
def settled (psoc : Psoc) : List Nat := psoc.ctx.toList ++ psoc.phase.adopts

/-- Every store that a psoc or its call refers to. -/
def pointers (psoc : Psoc) : List Nat :=
  psoc.counted ++ psoc.phase.removes ++ psoc.phase.frees

end Psoc

/-- How often the psocs refer to a store, as far as `view` shows. -/
def refs (view : Psoc → List Nat) (psocs : List Psoc) (store : Nat) : Nat :=
  held (psocs.map view) store

/-- Replacing one psoc changes that psoc's part only. -/
theorem exists_rest_refs {psocs : List Psoc} {i : Nat} {own : Psoc} (found : psocs[i]? = some own)
    (view : Psoc → List Nat) (store : Nat) :
    ∃ rest, refs view psocs store = rest + (view own).count store ∧
      ∀ now, refs view (psocs.set i now) store = rest + (view now).count store := by
  have foundView : (psocs.map view)[i]? = some (view own) := by simp [found]
  obtain ⟨rest, before, after⟩ := exists_rest_of_getElem? foundView
  refine ⟨rest store, ?_, ?_⟩
  · unfold refs
    rw [before]
  · intro now
    unfold refs
    rw [map_set, after]

theorem count_le_refs {psocs : List Psoc} {psoc : Psoc} (member : psoc ∈ psocs)
    (view : Psoc → List Nat) (store : Nat) : (view psoc).count store ≤ refs view psocs store := by
  obtain ⟨i, found⟩ := mem_iff_getElem?.mp member
  obtain ⟨rest, before, _⟩ := exists_rest_refs found view store
  rw [before]
  exact Nat.le_add_left _ _

theorem refs_replicate_absent (view : Psoc → List Nat) (none : view .absent = [])
    (count store : Nat) : refs view (replicate count .absent) store = 0 := by
  unfold refs
  induction count with
  | zero => rfl
  | succ count ih =>
    rw [replicate_succ, map_cons, held_cons, ih, none]
    rfl

/-! ## The invariant -/

section Invariant

variable {υ : Type}

/-- The account of one store. -/
structure Balanced (state : CfgStores υ) (store : Nat) : Prop where
  users : store < state.allocated → (state.stores store).users =
    refs Psoc.counted state.psocs store + if store = cfgGlobalStore then 1 else 0
  gone : store < state.allocated →
    refs (fun psoc => psoc.phase.removes) state.psocs store +
        refs (fun psoc => psoc.phase.frees) state.psocs store + state.freed store =
      if (state.stores store).users = 0 then 1 else 0
  filling : store < state.allocated → refs (fun psoc => psoc.phase.fills) state.psocs store =
    if (state.stores store).parse = .unparsed then 1 else 0
  listed : store ∈ state.storesList ↔ store < state.allocated ∧
    refs (fun psoc => psoc.phase.frees) state.psocs store + state.freed store = 0
  unallocated : state.allocated ≤ store → refs Psoc.counted state.psocs store = 0 ∧
    refs (fun psoc => psoc.phase.removes) state.psocs store = 0 ∧
    refs (fun psoc => psoc.phase.frees) state.psocs store = 0 ∧
    refs (fun psoc => psoc.phase.fills) state.psocs store = 0 ∧ state.freed store = 0

/-- What is known of a single psoc. -/
structure Orderly (state : CfgStores υ) (psoc : Psoc) : Prop where
  settled : ∀ store ∈ psoc.settled, (state.stores store).parse = .succeeded
  parsed : psoc.parsed = true → psoc.ctx ≠ none
  parsing : psoc.phase.parses = true → psoc.ctx = some cfgGlobalStore
  returning : psoc.phase.succeeds = true → psoc.ctx ≠ none

/-- The invariant. -/
structure Sound (state : CfgStores υ) : Prop where
  positive : cfgGlobalStore < state.allocated
  nodup : state.storesList.Nodup
  balanced : ∀ store, Balanced state store
  orderly : ∀ psoc ∈ state.psocs, Orderly state psoc
  globalParsed : (state.stores cfgGlobalStore).parse = .succeeded

theorem sound_init (path : String) (values : υ) (count : Nat) : Sound (init path values count) := by
  constructor
  · exact Nat.one_pos
  · exact nodup_singleton _
  · intro store
    have noCounted := refs_replicate_absent Psoc.counted rfl count store
    have noRemoves := refs_replicate_absent (fun psoc => psoc.phase.removes) rfl count store
    have noFrees := refs_replicate_absent (fun psoc => psoc.phase.frees) rfl count store
    have noFills := refs_replicate_absent (fun psoc => psoc.phase.fills) rfl count store
    constructor
    · intro inside
      have isGlobal : store = cfgGlobalStore := Nat.lt_one_iff.mp inside
      rw [isGlobal] at noCounted ⊢
      simp [init, noCounted]
    · simp [init, noRemoves, noFrees]
    · simp [init, noFills]
    · simp [init, noFrees, cfgGlobalStore]
    · intro outside
      exact ⟨noCounted, noRemoves, noFrees, noFills, rfl⟩
  · intro psoc member
    rw [(mem_replicate.mp member).2]
    exact ⟨fun _ _ => rfl, nofun, nofun, nofun⟩
  · rfl

/-! ## One psoc replaced -/

section Replaced

variable {state next : CfgStores υ} {i store : Nat} {own now : Psoc}

/-- A store that a step has nothing to do with. -/
theorem Balanced.frame (old : Balanced state store) (found : state.psocs[i]? = some own)
    (psocs : next.psocs = state.psocs.set i now)
    (sameStore : next.stores store = state.stores store)
    (sameFreed : next.freed store = state.freed store)
    (sameListed : store ∈ next.storesList ↔ store ∈ state.storesList)
    (sameAllocated : store < next.allocated ↔ store < state.allocated)
    (counted : now.counted.count store = own.counted.count store)
    (removes : now.phase.removes.count store = own.phase.removes.count store)
    (frees : now.phase.frees.count store = own.phase.frees.count store)
    (fills : now.phase.fills.count store = own.phase.fills.count store) : Balanced next store := by
  have same : ∀ view : Psoc → List Nat, (view now).count store = (view own).count store →
      refs view next.psocs store = refs view state.psocs store := by
    intro view sameCount
    obtain ⟨rest, before, after⟩ := exists_rest_refs found view store
    rw [psocs, after, before, sameCount]
  have sameFrees := same (fun psoc => psoc.phase.frees) frees
  constructor
  · intro inside
    rw [sameStore, same Psoc.counted counted]
    exact old.users (sameAllocated.mp inside)
  · intro inside
    rw [sameStore, sameFreed, same (fun psoc => psoc.phase.removes) removes, sameFrees]
    exact old.gone (sameAllocated.mp inside)
  · intro inside
    rw [sameStore, same (fun psoc => psoc.phase.fills) fills]
    exact old.filling (sameAllocated.mp inside)
  · rw [sameListed, sameAllocated, sameFreed, sameFrees]
    exact old.listed
  · intro outside
    rw [sameFreed, same Psoc.counted counted, sameFrees,
      same (fun psoc => psoc.phase.removes) removes,
      same (fun psoc => psoc.phase.fills) fills]
    apply old.unallocated
    exact Nat.le_of_not_lt fun inside =>
      Nat.not_lt_of_le outside (sameAllocated.mpr inside)

/-- A store that a step works on: what the psoc's part of each count gains has to
be gained on the other side. -/
theorem Balanced.change (old : Balanced state store) (found : state.psocs[i]? = some own)
    (psocs : next.psocs = state.psocs.set i now)
    (inside : store < state.allocated) (sameAllocated : next.allocated = state.allocated)
    (users : (next.stores store).users + own.counted.count store =
      (state.stores store).users + now.counted.count store)
    (gone : now.phase.removes.count store + now.phase.frees.count store + next.freed store +
        (if (state.stores store).users = 0 then 1 else 0) =
      own.phase.removes.count store + own.phase.frees.count store + state.freed store +
        (if (next.stores store).users = 0 then 1 else 0)) (filling : now.phase.fills.count store +
        (if (state.stores store).parse = .unparsed then 1 else 0) =
      own.phase.fills.count store + (if (next.stores store).parse = .unparsed then 1 else 0))
    (listed : store ∈ next.storesList ↔
      refs (fun psoc => psoc.phase.frees) next.psocs store + next.freed store = 0) :
    Balanced next store := by
  constructor
  · obtain ⟨rest, before, after⟩ := exists_rest_refs found Psoc.counted store
    have balance := old.users inside
    rw [psocs, after]
    omega
  · obtain ⟨rest, before, after⟩ :=
      exists_rest_refs found (fun psoc => psoc.phase.removes) store
    obtain ⟨restFrees, beforeFrees, afterFrees⟩ :=
      exists_rest_refs found (fun psoc => psoc.phase.frees) store
    have balance := old.gone inside
    rw [psocs, after, afterFrees]
    omega
  · obtain ⟨rest, before, after⟩ := exists_rest_refs found (fun psoc => psoc.phase.fills) store
    have balance := old.filling inside
    rw [psocs, after]
    omega
  · rw [listed, sameAllocated]
    exact ⟨fun zero => ⟨inside, zero⟩, fun both => both.2⟩
  · intro outside
    rw [sameAllocated] at outside
    exact absurd inside (Nat.not_lt_of_le outside)

/-- The invariant after a step of one psoc. -/
theorem Sound.replaced (sound : Sound state)
    (psocs : next.psocs = state.psocs.set i now) (grown : state.allocated ≤ next.allocated)
    (nodup : next.storesList.Nodup) (balanced : ∀ store, Balanced next store)
    (sameParse : ∀ psoc ∈ state.psocs, ∀ store ∈ psoc.settled,
      (state.stores store).parse = .succeeded → (next.stores store).parse = .succeeded)
    (orderly : Orderly next now)
    (globalParsed : (next.stores cfgGlobalStore).parse = .succeeded) : Sound next := by
  constructor
  · exact Nat.lt_of_lt_of_le sound.positive grown
  · exact nodup
  · exact balanced
  · intro psoc member
    rw [psocs] at member
    rcases mem_or_eq_of_mem_set member with other | rfl
    · have old := sound.orderly psoc other
      exact ⟨fun store settled => sameParse psoc other store settled (old.settled store settled),
        old.parsed, old.parsing, old.returning⟩
    · exact orderly
  · exact globalParsed

/-- A step that concerns no store. -/
theorem Sound.setPsoc (sound : Sound state) (found : state.psocs[i]? = some own)
    (counted : ∀ store, now.counted.count store = own.counted.count store)
    (removes : now.phase.removes = own.phase.removes) (frees : now.phase.frees = own.phase.frees)
    (fills : now.phase.fills = own.phase.fills) (orderly : Orderly state now) :
    Sound (state.setPsoc i now) := by
  refine sound.replaced rfl (Nat.le_refl _) sound.nodup ?_ (fun _ _ _ _ same => same)
    ⟨orderly.settled, orderly.parsed, orderly.parsing, orderly.returning⟩ sound.globalParsed
  intro store
  exact (sound.balanced store).frame found rfl rfl rfl Iff.rfl Iff.rfl (counted store)
    (by rw [removes]) (by rw [frees]) (by rw [fills])

end Replaced

/-! ## The steps -/

theorem Psoc.count_counted (psoc : Psoc) (store : Nat) : psoc.counted.count store =
    psoc.ctx.toList.count store + psoc.phase.counted.count store :=
  count_append

section Steps

variable {state : CfgStores υ} {i store : Nat} {psoc : Psoc} {ok : Bool}

/-- A store that the psocs do not refer to. -/
theorem not_mem_pointers {psocs : List Psoc} (member : psoc ∈ psocs)
    (noCounted : refs Psoc.counted psocs store = 0)
    (noRemoves : refs (fun psoc => psoc.phase.removes) psocs store = 0)
    (noFrees : refs (fun psoc => psoc.phase.frees) psocs store = 0) : store ∉ psoc.pointers := by
  have none : ∀ view : Psoc → List Nat, refs view psocs store = 0 → store ∉ view psoc := by
    intro view zero held
    have atLeast := count_le_refs member view store
    have positive := count_pos_iff.mpr held
    omega
  simp only [Psoc.pointers, mem_append]
  rintro ((counted | removes) | frees)
  · exact none _ noCounted counted
  · exact none (fun psoc => psoc.phase.removes) noRemoves removes
  · exact none (fun psoc => psoc.phase.frees) noFrees frees

/-- What a call or a context refers to was allocated. -/
theorem Sound.inside (sound : Sound state) (found : state.psocs[i]? = some psoc)
    (pointer : store ∈ psoc.pointers) : store < state.allocated := by
  have member := mem_of_getElem? found
  by_contra outside
  obtain ⟨noCounted, noRemoves, noFrees, _, _⟩ :=
    (sound.balanced store).unallocated (Nat.le_of_not_lt outside)
  exact not_mem_pointers member noCounted noRemoves noFrees pointer

theorem mem_pointers_of_counted (counted : store ∈ psoc.counted) : store ∈ psoc.pointers :=
  mem_append_left _ (mem_append_left _ counted)

theorem mem_counted_of_phase (counted : store ∈ psoc.phase.counted) : store ∈ psoc.counted :=
  mem_append_right _ counted

/-- What is listed has its account open. -/
theorem Sound.listed_iff (sound : Sound state) (inside : store < state.allocated) :
    store ∈ state.storesList ↔
      refs (fun psoc => psoc.phase.frees) state.psocs store + state.freed store = 0 := by
  rw [(sound.balanced store).listed]
  exact ⟨fun both => both.2, fun zero => ⟨inside, zero⟩⟩

theorem stores_addUsers (state : CfgStores υ) (store other : Nat) (change : Int) :
    ((state.addUsers store change).stores other).parse = (state.stores other).parse := by
  by_cases same : other = store
  · subst same
    simp [addUsers, CfgStores.setStore]
  · simp [addUsers, CfgStores.setStore, same]

section

variable (sound : Sound state)

include sound

/-- A psoc whose call goes on to a phase with other counts, after a change to the
users of one store. -/
theorem Sound.addUsers (found : state.psocs[i]? = some psoc)
    (inside : store < state.allocated) {now : Psoc} {change : Int}
    (counted : (now.counted.count store : Int) = psoc.counted.count store + change)
    (countedElsewhere : ∀ other, other ≠ store → now.counted.count other = psoc.counted.count other)
    (removes : now.phase.removes.count store + (if (state.stores store).users = 0 then 1 else 0) =
      psoc.phase.removes.count store + (if (state.stores store).users + change = 0 then 1 else 0))
    (removesElsewhere : ∀ other, other ≠ store →
      now.phase.removes.count other = psoc.phase.removes.count other)
    (frees : now.phase.frees = psoc.phase.frees)
    (fills : now.phase.fills = psoc.phase.fills) (orderly : Orderly state now) :
    Sound ((state.addUsers store change).setPsoc i now) := by
  have sameParse := stores_addUsers state store
  refine sound.replaced rfl (Nat.le_refl _) sound.nodup ?_ ?_ ?_ ?_
  · intro other
    by_cases same : other = store
    · subst same
      have written : ((state.addUsers other change).stores other).users =
          (state.stores other).users + change := by
        simp [addUsers, CfgStores.setStore]
      refine (sound.balanced other).change found rfl inside rfl ?_ ?_ ?_ ?_
      · show ((state.addUsers other change).stores other).users + _ = _
        omega
      · show _ = _ + (if ((state.addUsers other change).stores other).users = 0 then 1 else 0)
        rw [written, frees]
        show _ + _ + state.freed other + _ = _
        omega
      · show _ = _ + (if ((state.addUsers other change).stores other).parse = _ then 1 else 0)
        rw [sameParse, fills]
      · show other ∈ state.storesList ↔ _
        rw [sound.listed_iff inside]
        obtain ⟨rest, before, after⟩ :=
          exists_rest_refs found (fun psoc => psoc.phase.frees) other
        show _ ↔ refs _ (state.psocs.set i now) other + state.freed other = 0
        rw [before, after, frees]
    · refine (sound.balanced other).frame found rfl ?_ rfl Iff.rfl Iff.rfl
        (countedElsewhere other same) (removesElsewhere other same)
        (by rw [frees]) (by rw [fills])
      exact update_of_ne same _ _
  · intro _ _ other _ parsed
    exact (sameParse other change).trans parsed
  · exact ⟨fun other settled => (sameParse other change).trans (orderly.settled other settled),
      orderly.parsed, orderly.parsing, orderly.returning⟩
  · exact (sameParse _ change).trans sound.globalParsed

/-- The users of a store are at least the references of one psoc. -/
theorem Sound.users_pos (found : state.psocs[i]? = some psoc)
    (counted : store ∈ psoc.counted) : 0 < (state.stores store).users := by
  have inside := sound.inside found (mem_pointers_of_counted counted)
  have atLeast := count_le_refs (mem_of_getElem? found) Psoc.counted store
  have positive := count_pos_iff.mpr counted
  have balance := (sound.balanced store).users inside
  omega

theorem Sound.global_users_pos : 0 < (state.stores cfgGlobalStore).users := by
  have balance := (sound.balanced cfgGlobalStore).users sound.positive
  omega

section

variable (found : state.psocs[i]? = some psoc)

include found

theorem Sound.psocCreate (ctx : psoc.ctx = none) (phase : psoc.phase = .idle) (allocated : Bool) :
    Sound (state.psocCreate i psoc allocated) := by
  have old := sound.orderly psoc (mem_of_getElem? found)
  have positive := sound.global_users_pos
  cases allocated with
  | false => exact sound
  | true =>
    apply sound.addUsers found sound.positive
    · simp [Psoc.count_counted, phase, Phase.counted]
    · intro other different
      simp [Psoc.count_counted, phase, Phase.counted, different.symm]
    · rw [phase, if_neg (by omega), if_neg (by omega)]
      rfl
    · intro other _
      rw [phase]
      rfl
    · rw [phase]
      rfl
    · rw [phase]
      rfl
    · constructor
      · intro other settled
        simp [Psoc.settled, ctx, Phase.adopts] at settled
      · exact old.parsed
      · nofun
      · nofun

theorem Sound.setPriv (ctx : psoc.ctx = none) (phase : psoc.phase = .creating) (ok : Bool) :
    Sound (state.setPsoc i
      (if ok then { psoc with ctx := some cfgGlobalStore, phase := .idle }
      else { psoc with phase := .putting cfgGlobalStore false })) := by
  have old := sound.orderly psoc (mem_of_getElem? found)
  cases ok with
  | true =>
    apply sound.setPsoc found
    · simp [Psoc.count_counted, phase, ctx, Phase.counted]
    · rw [phase]
      rfl
    · rw [phase]
      rfl
    · rw [phase]
      rfl
    · constructor
      · intro other settled
        have isGlobal : other = cfgGlobalStore := by
          simpa [Psoc.settled, Phase.adopts] using settled
        rw [isGlobal]
        exact sound.globalParsed
      · exact fun _ => Option.some_ne_none _
      · nofun
      · nofun
  | false =>
    apply sound.setPsoc found
    · simp [Psoc.count_counted, phase, Phase.counted]
    · rw [phase]
      rfl
    · rw [phase]
      rfl
    · rw [phase]
      rfl
    · constructor
      · intro other settled
        simp [Psoc.settled, ctx, Phase.adopts] at settled
      · exact old.parsed
      · nofun
      · nofun

theorem Sound.psocDestroy (ctx : psoc.ctx = some store) (phase : psoc.phase = .idle) :
    Sound (state.setPsoc i ⟨none, .putting store false, false⟩) := by
  apply sound.setPsoc found
  · simp [Psoc.count_counted, phase, ctx, Phase.counted]
  · rw [phase]
    rfl
  · rw [phase]
    rfl
  · rw [phase]
    rfl
  · constructor
    · intro other settled
      simp [Psoc.settled, Phase.adopts] at settled
    · nofun
    · nofun
    · nofun

/-- A call returns or goes on without a store in hand. -/
theorem Sound.goOn (holdsNothing : psoc.phase.counted = []) (removes : psoc.phase.removes = [])
    (frees : psoc.phase.frees = []) (fills : psoc.phase.fills = []) {phase : Phase}
    (stillNothing : phase.counted = []) (stillRemoves : phase.removes = [])
    (stillFrees : phase.frees = []) (stillFills : phase.fills = [])
    (adopts : phase.adopts = []) {parsed : Bool} (parsedCtx : parsed = true → psoc.ctx ≠ none)
    (parsing : phase.parses = true → psoc.ctx = some cfgGlobalStore)
    (returning : phase.succeeds = true → psoc.ctx ≠ none) :
    Sound (state.setPsoc i { psoc with phase := phase, parsed := parsed }) := by
  have old := sound.orderly psoc (mem_of_getElem? found)
  apply sound.setPsoc found
  · simp [Psoc.count_counted, holdsNothing, stillNothing]
  · exact stillRemoves.trans removes.symm
  · exact stillFrees.trans frees.symm
  · exact stillFills.trans fills.symm
  · constructor
    · intro other settled
      simp only [Psoc.settled, adopts, append_nil] at settled
      exact old.settled other (mem_append_left _ settled)
    · exact parsedCtx
    · exact parsing
    · exact returning

theorem Sound.psocParse (ctx : psoc.ctx = some store) (phase : psoc.phase = .idle) (path : String) :
    Sound (state.psocParse i psoc store path) := by
  unfold CfgStores.psocParse
  by_cases isGlobal : store = cfgGlobalStore
  · subst isGlobal
    apply sound.goOn found <;> simp [phase, ctx, Phase.counted, removes, frees,
      Phase.fills, Phase.adopts, Phase.succeeds]
  · rw [if_neg isGlobal]
    apply sound.goOn found <;> simp [phase, ctx, Phase.counted, removes, frees,
      Phase.fills, Phase.adopts, Phase.parses, Phase.succeeds]

end

end

/-- What `cfg_store_get` should find: a store that is in use and was parsed. -/
def Usable (state : CfgStores υ) (path : String) : Prop :=
  ∀ store ∈ state.find path,
    (state.stores store).users ≠ 0 ∧ (state.stores store).parse = .succeeded

instance (state : CfgStores υ) (path : String) : Decidable (Usable state path) :=
  inferInstanceAs (Decidable (∀ store ∈ state.find path,
    (state.stores store).users ≠ 0 ∧ (state.stores store).parse = .succeeded))

theorem mem_of_find {path : String} (found : state.find path = some store) :
    store ∈ state.storesList :=
  mem_of_find?_eq_some found

theorem Sound.storeGet (sound : Sound state) (found : state.psocs[i]? = some psoc)
    {path : String} (phase : psoc.phase = .getting path) (usable : Usable state path) :
    Sound (state.storeGet i psoc path) := by
  have old := sound.orderly psoc (mem_of_getElem? found)
  have ctx := old.parsing (by rw [phase]; rfl)
  unfold CfgStores.storeGet
  rcases lookup : state.find path with _ | store
  · apply sound.goOn found <;> simp [phase, ctx, Phase.counted, removes, frees,
      Phase.fills, Phase.adopts, Phase.succeeds]
  · obtain ⟨inUse, parsed⟩ := usable store lookup
    have inside := ((sound.balanced store).listed.mp (mem_of_find lookup)).1
    have balance := (sound.balanced store).users inside
    have stillUsed : (state.stores store).users + 1 ≠ 0 := by omega
    apply sound.addUsers found inside
    · simp [Psoc.count_counted, phase, Phase.counted]
    · intro other different
      simp [Psoc.count_counted, phase, Phase.counted, different.symm]
    · rw [phase, if_neg inUse, if_neg stillUsed]
      rfl
    · intro other _
      rw [phase]
      rfl
    · rw [phase]
      rfl
    · rw [phase]
      rfl
    · constructor
      · intro other settled
        rcases mem_append.mp settled with inCtx | adopted
        · exact old.settled other (mem_append_left _ inCtx)
        · rw [mem_singleton.mp adopted]
          exact parsed
      · exact old.parsed
      · exact fun _ => ctx
      · nofun

theorem Sound.setStore (sound : Sound state) (found : state.psocs[i]? = some psoc)
    (phase : psoc.phase = .adopting store) :
    Sound (state.setPsoc i
      { psoc with ctx := some store, phase := .putting cfgGlobalStore true }) := by
  have old := sound.orderly psoc (mem_of_getElem? found)
  have ctx := old.parsing (by rw [phase]; rfl)
  apply sound.setPsoc found
  · intro other
    simp only [Psoc.count_counted, phase, ctx]
    exact Nat.add_comm _ _
  · rw [phase]
    rfl
  · rw [phase]
    rfl
  · rw [phase]
    rfl
  · constructor
    · intro other settled
      apply old.settled other
      have isStore : other = store := by simpa [Psoc.settled, Phase.adopts] using settled
      rw [isStore, Psoc.settled, phase]
      exact mem_append_right _ (mem_singleton_self _)
    · exact fun _ => Option.some_ne_none _
    · nofun
    · exact fun _ => Option.some_ne_none _

/-- The call that holds the last reference goes on to free the store. -/
theorem Sound.storePut (sound : Sound state) (found : state.psocs[i]? = some psoc)
    (phase : psoc.phase = .putting store ok) : Sound (state.storePut i psoc store ok) := by
  have old := sound.orderly psoc (mem_of_getElem? found)
  have held : store ∈ psoc.counted :=
    mem_counted_of_phase (by rw [phase]; exact mem_singleton_self _)
  have inside := sound.inside found (mem_pointers_of_counted held)
  have positive := sound.users_pos found held
  have settledOf : ∀ other, other ∈ psoc.ctx.toList ++ [] →
      (state.stores other).parse = .succeeded := by
    intro other settled
    rw [append_nil] at settled
    exact old.settled other (mem_append_left _ settled)
  have returning : ok = true → psoc.ctx ≠ none := by
    intro succeeds
    exact old.returning (by rw [phase]; exact succeeds)
  unfold CfgStores.storePut
  by_cases last : (state.stores store).users - 1 = 0
  · rw [if_pos last]
    apply sound.addUsers found inside
    · simp [Psoc.count_counted, phase, Phase.counted]
    · intro other different
      simp [Psoc.count_counted, phase, Phase.counted, different.symm]
    · rw [phase, if_neg (by omega), if_pos (by omega)]
      simp [removes]
    · intro other different
      simp [phase, removes, different.symm]
    · rw [phase]
      rfl
    · rw [phase]
      rfl
    · exact ⟨settledOf, old.parsed, nofun, returning⟩
  · rw [if_neg last]
    apply sound.addUsers found inside
    · simp [Psoc.count_counted, phase, Phase.counted]
    · intro other different
      simp [Psoc.count_counted, phase, Phase.counted, different.symm]
    · rw [phase, if_neg (by omega), if_neg (by omega)]
      rfl
    · intro other _
      rw [phase]
      rfl
    · rw [phase]
      rfl
    · rw [phase]
      rfl
    · refine ⟨settledOf, ?_, nofun, nofun⟩
      intro parsed
      rcases (Bool.or_eq_true _ _).mp parsed with before | now
      · exact old.parsed before
      · exact returning now

theorem mem_pointers_of_settled (settled : store ∈ psoc.settled) : store ∈ psoc.pointers := by
  rcases mem_append.mp settled with inCtx | adopted
  · exact mem_pointers_of_counted (mem_append_left _ inCtx)
  · apply mem_pointers_of_counted
    apply mem_counted_of_phase
    cases phase : psoc.phase <;> rw [phase] at adopted <;>
      first
        | exact adopted
        | exact absurd adopted not_mem_nil

/-- The account of a new store. -/
theorem Sound.balanced_new (sound : Sound state) (found : state.psocs[i]? = some psoc)
    (path : String) (ctx : psoc.ctx = some cfgGlobalStore) :
    Balanced (state.storeAlloc i psoc path true) state.allocated := by
  obtain ⟨noCounted, noRemoves, noFrees, noFills, notFreed⟩ :=
    (sound.balanced state.allocated).unallocated (Nat.le_refl _)
  have globalOld : cfgGlobalStore ≠ state.allocated := Nat.ne_of_lt sound.positive
  obtain ⟨counted, countedBefore, countedAfter⟩ :=
    exists_rest_refs found Psoc.counted state.allocated
  obtain ⟨removes, removesBefore, removesAfter⟩ :=
    exists_rest_refs found (fun psoc => psoc.phase.removes) state.allocated
  obtain ⟨frees, freesBefore, freesAfter⟩ :=
    exists_rest_refs found (fun psoc => psoc.phase.frees) state.allocated
  obtain ⟨fills, fillsBefore, fillsAfter⟩ :=
    exists_rest_refs found (fun psoc => psoc.phase.fills) state.allocated
  have noneCounted : counted = 0 := by omega
  have noneRemoves : removes = 0 := by omega
  have noneFrees : frees = 0 := by omega
  have noneFills : fills = 0 := by omega
  have nowFrees : refs (fun psoc => psoc.phase.frees)
      (state.storeAlloc i psoc path true).psocs state.allocated = 0 := by
    show refs _ (state.psocs.set i _) _ = 0
    rw [freesAfter, noneFrees]
    rfl
  constructor
  · intro _
    show (update state.stores _ _ _).users = (refs _ (state.psocs.set i _) _ : Int) + _
    rw [countedAfter, noneCounted, if_neg globalOld.symm]
    simp [Psoc.count_counted, ctx, Phase.counted, globalOld]
  · intro _
    show refs _ (state.psocs.set i _) _ + _ + state.freed _ =
      if (update state.stores _ _ _).users = 0 then 1 else 0
    rw [nowFrees, removesAfter, noneRemoves, notFreed, update_self]
    rfl
  · intro _
    show refs _ (state.psocs.set i _) _ =
      if (update state.stores _ _ _).parse = .unparsed then 1 else 0
    rw [fillsAfter, noneFills]
    simp [Phase.fills]
  · have inList : state.allocated ∈ state.storesList ++ [state.allocated] :=
      mem_append_right _ (mem_singleton_self _)
    rw [nowFrees]
    exact ⟨fun _ => ⟨Nat.lt_succ_self _, by rw [Nat.zero_add]; exact notFreed⟩, fun _ => inList⟩
  · intro outside
    exact absurd outside (Nat.not_succ_le_self _)

theorem Sound.storeAlloc (sound : Sound state) (found : state.psocs[i]? = some psoc)
    {path : String} (phase : psoc.phase = .allocating path) (allocated : Bool) :
    Sound (state.storeAlloc i psoc path allocated) := by
  have old := sound.orderly psoc (mem_of_getElem? found)
  have ctx := old.parsing (by rw [phase]; rfl)
  unfold CfgStores.storeAlloc
  cases allocated with
  | false =>
    apply sound.goOn found <;> simp [phase, ctx, Phase.counted, removes, frees,
      Phase.fills, Phase.adopts, Phase.parses, Phase.succeeds]
  | true =>
    have keepsParse : ∀ other, other < state.allocated →
        (update state.stores state.allocated
          ⟨path, (state.stores state.allocated).values, 1, .unparsed⟩ other).parse =
            (state.stores other).parse := by
      intro other inside
      rw [update_of_ne (Nat.ne_of_lt inside)]
    refine sound.replaced rfl (Nat.le_succ _) ?_ ?_ ?_ ?_ ?_
    · refine nodup_append.mpr ⟨sound.nodup, nodup_singleton _, ?_⟩
      intro listed isListed new isNew same
      rw [mem_singleton.mp isNew] at same
      exact Nat.lt_irrefl _ (same ▸ ((sound.balanced listed).listed.mp isListed).1)
    · intro other
      by_cases same : other = state.allocated
      · subst same
        exact sound.balanced_new found path ctx
      · refine (sound.balanced other).frame found rfl ?_ rfl ?_ ?_ ?_ ?_ ?_ ?_
        · exact update_of_ne same _ _
        · simp [same]
        · show other < state.allocated + 1 ↔ _
          omega
        · simp [Psoc.count_counted, phase, Phase.counted, Ne.symm same]
        · simp [phase, removes]
        · simp [phase, frees]
        · simp [phase, Phase.fills, Ne.symm same]
    · intro other member store settled parsed
      refine (keepsParse store ?_).trans parsed
      obtain ⟨j, foundOther⟩ := mem_iff_getElem?.mp member
      exact sound.inside foundOther (mem_pointers_of_settled settled)
    · constructor
      · intro other settled
        have isGlobal : other = cfgGlobalStore := by
          simpa [Psoc.settled, ctx, Phase.adopts] using settled
        rw [isGlobal]
        exact (keepsParse _ sound.positive).trans sound.globalParsed
      · exact old.parsed
      · exact fun _ => ctx
      · nofun
    · exact (keepsParse _ sound.positive).trans sound.globalParsed

/-- A store that is being filled was not parsed before. -/
theorem Sound.unparsed_of_filling (sound : Sound state) (found : state.psocs[i]? = some psoc)
    (phase : psoc.phase = .filling store) (inside : store < state.allocated) :
    (state.stores store).parse = .unparsed := by
  have atLeast := count_le_refs (mem_of_getElem? found) (fun psoc => psoc.phase.fills) store
  have balance := (sound.balanced store).filling inside
  have one : psoc.phase.fills.count store = 1 := by
    rw [phase]
    exact count_singleton_self
  by_contra parsed
  rw [if_neg parsed] at balance
  omega

theorem Sound.parseToStore (sound : Sound state) (found : state.psocs[i]? = some psoc)
    (phase : psoc.phase = .filling store) (parsed : υ → υ) (ok : Bool) :
    Sound (state.parseToStore i psoc store parsed ok) := by
  have old := sound.orderly psoc (mem_of_getElem? found)
  have ctx := old.parsing (by rw [phase]; rfl)
  have held : store ∈ psoc.counted :=
    mem_counted_of_phase (by rw [phase]; exact mem_singleton_self _)
  have inside := sound.inside found (mem_pointers_of_counted held)
  have unparsed := sound.unparsed_of_filling found phase inside
  generalize written : CfgStores.parseToStore state i psoc store parsed ok = next
  have storesElsewhere : ∀ other, other ≠ store → next.stores other = state.stores other := by
    intro other different
    rw [← written]
    exact update_of_ne different _ _
  have usersHere : (next.stores store).users = (state.stores store).users := by
    rw [← written]
    simp [CfgStores.parseToStore, CfgStores.setPsoc, CfgStores.setStore]
  have parseHere : (next.stores store).parse = if ok then .succeeded else .failed := by
    rw [← written]
    simp [CfgStores.parseToStore, CfgStores.setPsoc, CfgStores.setStore]
  have keepsParse : ∀ other, (state.stores other).parse = .succeeded →
      (next.stores other).parse = .succeeded := by
    intro other succeeded
    have different : other ≠ store := by
      rintro rfl
      rw [unparsed] at succeeded
      cases succeeded
    rw [storesElsewhere other different]
    exact succeeded
  have psocs : next.psocs = state.psocs.set i
      { psoc with phase := if ok then .adopting store else .putting store false } := by
    rw [← written]
    rfl
  have sameListed : next.storesList = state.storesList := by
    rw [← written]
    rfl
  have sameFreed : next.freed = state.freed := by
    rw [← written]
    rfl
  have sameAllocated : next.allocated = state.allocated := by
    rw [← written]
    rfl
  refine sound.replaced psocs (Nat.le_of_eq sameAllocated.symm) ?_ ?_ ?_ ?_ ?_
  · rw [sameListed]
    exact sound.nodup
  · intro other
    by_cases same : other = store
    · subst same
      refine (sound.balanced other).change found psocs inside sameAllocated ?_ ?_ ?_ ?_
      · rw [usersHere]
        cases ok <;> simp [Psoc.count_counted, phase, Phase.counted]
      · rw [usersHere, sameFreed]
        cases ok <;> simp [phase, removes, frees]
      · rw [parseHere, unparsed]
        cases ok <;> simp [phase, Phase.fills]
      · obtain ⟨rest, before, after⟩ :=
          exists_rest_refs found (fun psoc => psoc.phase.frees) other
        rw [sameListed, sameFreed, sound.listed_iff inside, psocs, before, after]
        cases ok <;> simp [phase, frees]
    · refine (sound.balanced other).frame found psocs (storesElsewhere other same)
        (by rw [sameFreed]) (by rw [sameListed]) (by rw [sameAllocated]) ?_ ?_ ?_ ?_
      · cases ok <;> simp [Psoc.count_counted, phase, Phase.counted]
      · cases ok <;> simp [phase, removes]
      · cases ok <;> simp [phase, frees]
      · cases ok <;> simp [phase, Phase.fills, Ne.symm same]
  · exact fun _ _ other _ => keepsParse other
  · constructor
    · intro other settled
      rcases mem_append.mp settled with inCtx | adopted
      · exact keepsParse other (old.settled other (mem_append_left _ inCtx))
      · cases ok with
        | false => exact absurd adopted not_mem_nil
        | true =>
          rw [mem_singleton.mp adopted]
          exact parseHere
    · exact old.parsed
    · exact fun _ => ctx
    · cases ok <;> nofun
  · exact keepsParse _ sound.globalParsed

theorem stores_listRemove (state : CfgStores υ) (i : Nat) (psoc : Psoc) (store : Nat)
    (ok : Bool) : (state.listRemove i psoc store ok).stores = state.stores := rfl

theorem freed_listRemove (state : CfgStores υ) (i : Nat) (psoc : Psoc) (store : Nat)
    (ok : Bool) : (state.listRemove i psoc store ok).freed = state.freed := rfl

theorem Sound.listRemove (sound : Sound state) (found : state.psocs[i]? = some psoc)
    (phase : psoc.phase = .removing store ok) : Sound (state.listRemove i psoc store ok) := by
  have old := sound.orderly psoc (mem_of_getElem? found)
  have held : store ∈ psoc.pointers := by simp [Psoc.pointers, phase, removes]
  have inside := sound.inside found held
  refine sound.replaced rfl (Nat.le_refl _) (sound.nodup.erase _) ?_
    (fun _ _ _ _ parsed => parsed) ?_ sound.globalParsed
  · intro other
    by_cases same : other = store
    · subst same
      refine (sound.balanced other).change found rfl inside rfl ?_ ?_ ?_ ?_
      · simp [Psoc.count_counted, phase, Phase.counted, stores_listRemove]
      · rw [stores_listRemove, freed_listRemove]
        simp [phase, removes, frees]
      · rw [stores_listRemove]
        simp [phase, Phase.fills]
      · obtain ⟨rest, _, after⟩ :=
          exists_rest_refs found (fun psoc => psoc.phase.frees) other
        show other ∈ state.storesList.erase other ↔
          refs _ (state.psocs.set i _) other + state.freed other = 0
        rw [after]
        simp [sound.nodup.mem_erase_iff, frees]
    · refine (sound.balanced other).frame found rfl rfl rfl ?_ Iff.rfl ?_ ?_ ?_ ?_
      · exact mem_erase_of_ne same
      · simp [Psoc.count_counted, phase, Phase.counted]
      · simp [phase, removes, Ne.symm same]
      · simp [phase, frees, Ne.symm same]
      · simp [phase, Phase.fills]
  · constructor
    · intro other settled
      rcases mem_append.mp settled with inCtx | adopted
      · exact old.settled other (mem_append_left _ inCtx)
      · exact absurd adopted not_mem_nil
    · exact old.parsed
    · nofun
    · exact fun succeeds => old.returning (by rw [phase]; exact succeeds)

theorem stores_memFree (state : CfgStores υ) (i : Nat) (psoc : Psoc) (store : Nat)
    (ok : Bool) : (state.memFree i psoc store ok).stores = state.stores := rfl

theorem Sound.memFree (sound : Sound state) (found : state.psocs[i]? = some psoc)
    (phase : psoc.phase = .freeing store ok) : Sound (state.memFree i psoc store ok) := by
  have old := sound.orderly psoc (mem_of_getElem? found)
  have held : store ∈ psoc.pointers := by simp [Psoc.pointers, phase, frees]
  have inside := sound.inside found held
  refine sound.replaced rfl (Nat.le_refl _) sound.nodup ?_ (fun _ _ _ _ parsed => parsed) ?_
    sound.globalParsed
  · intro other
    by_cases same : other = store
    · subst same
      have freedHere : (state.memFree i psoc other ok).freed other = state.freed other + 1 :=
        update_self _ _ _
      refine (sound.balanced other).change found rfl inside rfl ?_ ?_ ?_ ?_
      · simp [Psoc.count_counted, phase, Phase.counted, stores_memFree]
      · rw [stores_memFree, freedHere]
        simp [phase, removes, frees, Nat.add_comm]
      · rw [stores_memFree]
        simp [phase, Phase.fills]
      · obtain ⟨rest, before, after⟩ :=
          exists_rest_refs found (fun psoc => psoc.phase.frees) other
        show other ∈ state.storesList ↔ refs _ (state.psocs.set i _) other + _ = 0
        rw [freedHere, sound.listed_iff inside, before]
        simp [phase, frees]
    · refine (sound.balanced other).frame found rfl rfl ?_ Iff.rfl Iff.rfl ?_ ?_ ?_ ?_
      · exact update_of_ne same _ _
      · simp [Psoc.count_counted, phase, Phase.counted]
      · simp [phase, removes]
      · simp [phase, frees, Ne.symm same]
      · simp [phase, Phase.fills]
  · constructor
    · intro other settled
      rcases mem_append.mp settled with inCtx | adopted
      · exact old.settled other (mem_append_left _ inCtx)
      · exact absurd adopted not_mem_nil
    · intro parsed
      rcases (Bool.or_eq_true _ _).mp parsed with before | succeeds
      · exact old.parsed before
      · exact old.returning (by rw [phase]; exact succeeds)
    · nofun
    · nofun

end Steps

end Invariant

end Sm8650.Cfg
