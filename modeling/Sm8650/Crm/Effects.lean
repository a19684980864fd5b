import Mathlib.Data.List.TakeWhile
import Sm8650.Crm.Setup

/-!
# What the steps of a trigger do

A trigger either leaves the link waiting, with the request at the read index pending at most, or
finds a request for every table, at the table's own distance from the read index, and calls the
devices. The links here have no special operations, so that only the regular loop of
`__cam_req_mgr_send_req` calls devices.
-/

namespace Sm8650.Crm

open Function List ReqTbl

/-! ## Places in the ring -/

theorem incIdx_lt (val step : Nat) : incIdx val step < maxReqSlots := Nat.mod_lt _ (by decide)

theorem incIdx_zero {val : Nat} (inRing : val < maxReqSlots) : incIdx val 0 = val :=
  Nat.mod_eq_of_lt inRing

theorem incIdx_incIdx (val first second : Nat) :
    incIdx (incIdx val first) second = incIdx val (first + second) := by
  unfold incIdx
  rw [Nat.mod_add_mod, Nat.add_assoc]

/-- Going back is going forward to the same place of the ring. -/
theorem decIdx_incIdx (val : Nat) {ahead back : Nat} (short : back ≤ maxReqSlots) :
    decIdx (incIdx val ahead) back = incIdx val (ahead + maxReqSlots - back) := by
  unfold decIdx incIdx maxReqSlots at *
  split <;> omega

theorem decIdx_incIdx_of_le (val : Nat) {ahead back : Nat} (short : back ≤ maxReqSlots)
    (behind : back ≤ ahead) : decIdx (incIdx val ahead) back = incIdx val (ahead - back) := by
  rw [decIdx_incIdx val short]
  unfold incIdx maxReqSlots
  omega

theorem incIdx_eq_iff (val first second : Nat) :
    incIdx val first = incIdx val second ↔ first % maxReqSlots = second % maxReqSlots := by
  unfold incIdx maxReqSlots
  omega

theorem decIdx_decIdx {val first second : Nat} (inRing : val < maxReqSlots)
    (short : first + second ≤ maxReqSlots) :
    decIdx (decIdx val first) second = decIdx val (first + second) := by
  unfold decIdx at *
  split <;> split <;> split <;> omega

/-! ## What matters of the tables -/

/-- A slot of a table but for the delays that are left. -/
def TblSlot.bare (slot : TblSlot) : TblSlot :=
  { slot with injectDelayAtSof := 0, injectDelayAtEof := 0 }

/-- The slots of a table but for the delays that are left. -/
def ReqTbl.bare (tbl : ReqTbl) : Nat × (Nat → TblSlot) := (tbl.pd, fun idx => (tbl.slot idx).bare)

/-- The triggers that a table still skips. -/
def ReqTbl.skip (tbl : ReqTbl) : Nat × Nat := (tbl.pd, tbl.skipTraverse)

theorem bare_tblSetAllSkipCnt (lTbl : List ReqTbl) :
    (Link.tblSetAllSkipCnt lTbl).map bare = lTbl.map bare := by
  cases lTbl with
  | nil => rfl
  | cons first rest =>
    unfold Link.tblSetAllSkipCnt
    rw [map_map]
    rfl

namespace Link

variable {link next : Link}

theorem bare_tblSlot_congr (same : next.lTbl.map bare = link.lTbl.map bare)
    (pd idx : Nat) : (next.tblSlot pd idx).bare = (link.tblSlot pd idx).bare := by
  have read : ∀ link : Link, (link.tblSlot pd idx).bare =
      match (link.lTbl.map bare).find? fun tbl => tbl.1 = pd with
      | some tbl => tbl.2 idx
      | none => .unused := by
    intro link
    rw [find?_map]
    have isPd : ((fun tbl : Nat × (Nat → TblSlot) => decide (tbl.1 = pd)) ∘ bare)
        = fun tbl : ReqTbl => decide (tbl.pd = pd) := rfl
    rw [isPd, tblSlot]
    cases link.lTbl.find? fun tbl => tbl.pd = pd with
    | none => rfl
    | some tbl => rfl
  rw [read, read, same]

/-- All tables change in the same way. -/
theorem tblSlot_map (change : ReqTbl → ReqTbl) (edit : Nat → TblSlot → TblSlot)
    (pd : ∀ tbl, (change tbl).pd = tbl.pd)
    (slot : ∀ tbl idx, (change tbl).slot idx = edit idx (tbl.slot idx))
    (unused : ∀ idx, edit idx .unused = .unused)
    (tables : next.lTbl = link.lTbl.map change) (delay idx : Nat) :
    next.tblSlot delay idx = edit idx (link.tblSlot delay idx) := by
  have isPd : ((fun tbl : ReqTbl => decide (tbl.pd = delay)) ∘ change)
      = fun tbl : ReqTbl => decide (tbl.pd = delay) := by
    funext tbl
    simp [pd]
  unfold tblSlot
  rw [tables, find?_map, isPd]
  cases link.lTbl.find? fun tbl => tbl.pd = delay with
  | none => exact (unused idx).symm
  | some tbl => exact slot tbl idx

variable {tbl : ReqTbl}

theorem find_pd_of_mem (chained : Chained link.lTbl) (among : tbl ∈ link.lTbl) :
    (link.lTbl.find? fun other => other.pd = tbl.pd) = some tbl := by
  cases found : link.lTbl.find? fun other => other.pd = tbl.pd with
  | none => simpa using find?_eq_none.mp found tbl among
  | some other =>
    have isPd : other.pd = tbl.pd := by simpa using find?_some found
    rw [chained.pd_injective other (mem_of_find?_eq_some found) tbl among isPd]

theorem tblSlot_of_mem (chained : Chained link.lTbl) (among : tbl ∈ link.lTbl) (idx : Nat)
    : link.tblSlot tbl.pd idx = tbl.slot idx := by
  unfold tblSlot
  rw [find_pd_of_mem chained among]

theorem devMask_of_mem (chained : Chained link.lTbl) (among : tbl ∈ link.lTbl) :
    link.devMask tbl.pd = tbl.devMask := by
  unfold devMask
  rw [find_pd_of_mem chained among]

theorem map_skip {lTbl : List ReqTbl} {change : ReqTbl → ReqTbl}
    (same : ∀ tbl, (change tbl).skip = tbl.skip) :
    (lTbl.map change).map ReqTbl.skip = lTbl.map ReqTbl.skip := by
  rw [map_map]
  exact map_congr_left fun tbl _ => same tbl

theorem skip_updateTblSlot (link : Link) (pd idx : Nat) (change : TblSlot → TblSlot) :
    (link.updateTblSlot pd idx change).lTbl.map ReqTbl.skip = link.lTbl.map ReqTbl.skip := by
  apply map_skip
  intro tbl
  split
  · rfl
  · rfl

theorem skip_resetReqSlot (link : Link) (idx : Nat) :
    (link.resetReqSlot idx).lTbl.map ReqTbl.skip = link.lTbl.map ReqTbl.skip := by
  unfold resetReqSlot
  split
  case isTrue => rfl
  case isFalse => exact map_skip fun _ => rfl

theorem skip_clearApplyMaps (link : Link) (idx : Nat) :
    (link.clearApplyMaps idx).lTbl.map ReqTbl.skip = link.lTbl.map ReqTbl.skip :=
  map_skip fun _ => rfl

/-- The slot is given up when `__cam_req_mgr_reset_req_slot` is called. -/
def GivesUp (link : Link) (idx : Nat) : Prop :=
  (link.slot idx).status ≠ .reqAdded ∧ link.lastAppliedIdx ≠ some idx

instance (link : Link) (idx : Nat) : Decidable (link.GivesUp idx) :=
  inferInstanceAs (Decidable (_ ∧ _))

/-- Only slots change. -/
theorem resetReqSlot_eq (link : Link) (idx : Nat) :
    ∃ slot lTbl, link.resetReqSlot idx = { link with slot := slot, lTbl := lTbl } := by
  unfold resetReqSlot
  split
  · exact ⟨link.slot, link.lTbl, rfl⟩
  · exact ⟨_, _, rfl⟩

theorem rdIdx_resetReqSlot (link : Link) (idx : Nat) :
    (link.resetReqSlot idx).rdIdx = link.rdIdx := by
  obtain ⟨slot, lTbl, isReset⟩ := link.resetReqSlot_eq idx
  rw [isReset]

theorem wrIdx_resetReqSlot (link : Link) (idx : Nat) :
    (link.resetReqSlot idx).wrIdx = link.wrIdx := by
  obtain ⟨slot, lTbl, isReset⟩ := link.resetReqSlot_eq idx
  rw [isReset]

theorem slot_resetReqSlot (link : Link) (idx other : Nat) :
    (link.resetReqSlot idx).slot other
      = if link.GivesUp idx ∧ other = idx then ⟨-1, false, .noReq, false⟩ else link.slot other := by
  unfold resetReqSlot
  by_cases stays : (link.slot idx).status = .reqAdded ∨ link.lastAppliedIdx = some idx
  · rw [if_pos stays, if_neg fun gone => stays.elim gone.1.1 gone.1.2]
  · rw [if_neg stays]
    rw [not_or] at stays
    by_cases isIdx : other = idx
    · subst isIdx
      rw [if_pos ⟨stays, rfl⟩]
      exact update_self _ _ _
    · rw [if_neg fun gone => isIdx gone.2]
      exact update_of_ne isIdx _ _

theorem tblSlot_resetReqSlot (link : Link) (idx pd other : Nat) :
    (link.resetReqSlot idx).tblSlot pd other
      = if link.GivesUp idx ∧ other = idx then .unused else link.tblSlot pd other := by
  unfold resetReqSlot GivesUp
  by_cases stays : (link.slot idx).status = .reqAdded ∨ link.lastAppliedIdx = some idx
  · rw [if_pos stays, if_neg fun gone => stays.elim gone.1.1 gone.1.2]
  · rw [if_neg stays]
    rw [not_or] at stays
    rw [tblSlot_map (fun tbl => { tbl with slot := update tbl.slot idx .unused })
      (fun other slot => if other = idx then .unused else slot) (fun _ => rfl)
      (fun tbl other => update_apply _ _ _ _) (fun other => by split <;> rfl) rfl]
    simp [stays.1, stays.2]

theorem tblSlot_clearApplyMaps (link : Link) (idx pd other : Nat) :
    (link.clearApplyMaps idx).tblSlot pd other
      = if other = idx then { link.tblSlot pd other with reqApplyMap := 0 }
        else link.tblSlot pd other := by
  apply tblSlot_map
    (fun tbl => { tbl with
      slot := update tbl.slot idx { tbl.slot idx with reqApplyMap := 0 } })
    (fun other slot => if other = idx then { slot with reqApplyMap := 0 } else slot)
    (fun _ => rfl) _ _ rfl
  · intro tbl other
    dsimp only
    rw [update_apply]
    split
    case isTrue isIdx => rw [isIdx]
    case isFalse => rfl
  · intro other
    split <;> rfl

/-! ## Looking for a request -/

/-- A table lets the traversal pass. -/
def passes (slot : Nat → Slot) (tbl : ReqTbl) (idx : Nat) : Prop :=
  (tbl.slot idx).state = .ready ∨ (slot idx).skipIdx = true ∨ 0 < tbl.skipTraverse

/-- What is found for a table with this number of triggers to skip. -/
def foundAt (slot : Nat → Slot) (idx skip : Nat) : Apply :=
  ⟨idx, if 0 < skip then -1 else (slot idx).reqId⟩

/-- The table when it has been found a request. -/
def lessSkip (tbl : ReqTbl) : ReqTbl := { tbl with skipTraverse := tbl.skipTraverse - 1 }

variable {slot : Nat → Slot} {idx : Nat} {applyData found : Nat → Apply}

theorem traverse_cons {validateOnly : Bool} {next left : List ReqTbl}
    (ready : traverse slot validateOnly (tbl :: next) idx applyData = some (found, left)) :
    passes slot tbl idx ∧ ∃ before rest,
      traverse slot validateOnly next (decIdx idx tbl.pdDelta) applyData = some (before, rest)
      ∧ found = (if validateOnly then before
          else update before tbl.pd (foundAt slot idx tbl.skipTraverse))
      ∧ left = (if validateOnly then tbl else lessSkip tbl) :: rest := by
  rw [traverse] at ready
  split at ready
  case isFalse => cases ready
  case isTrue isPassed =>
    refine ⟨isPassed, ?_⟩
    split at ready
    case h_1 => cases ready
    case h_2 before rest deeper =>
      refine ⟨before, rest, deeper, ?_⟩
      split at ready
      case isTrue validates =>
        cases ready
        rw [if_pos validates, if_pos validates]
        exact ⟨rfl, rfl⟩
      case isFalse searches =>
        rw [if_neg searches, if_neg searches]
        unfold foundAt lessSkip
        split at ready
        case isTrue skips =>
          cases ready
          rw [if_pos skips]
          exact ⟨rfl, rfl⟩
        case isFalse noSkip =>
          cases ready
          rw [if_neg noSkip]
          have isZero : tbl.skipTraverse - 1 = tbl.skipTraverse := by omega
          rw [isZero]
          exact ⟨rfl, rfl⟩

theorem traverse_validate {lTbl left : List ReqTbl}
    (ready : traverse slot true lTbl idx applyData = some (found, left)) :
    found = applyData ∧ left = lTbl := by
  induction lTbl generalizing idx found left with
  | nil =>
    cases ready
    exact ⟨rfl, rfl⟩
  | cons tbl next ih =>
    obtain ⟨_, before, rest, deeper, isFound, isLeft⟩ := traverse_cons ready
    obtain ⟨same, sameRest⟩ := ih deeper
    rw [isFound, isLeft, same, sameRest]
    exact ⟨rfl, rfl⟩

theorem traverse_left {lTbl left : List ReqTbl}
    (ready : traverse slot false lTbl idx applyData = some (found, left)) :
    left = lTbl.map lessSkip := by
  induction lTbl generalizing idx found left with
  | nil =>
    cases ready
    rfl
  | cons tbl next ih =>
    obtain ⟨_, before, rest, deeper, _, isLeft⟩ := traverse_cons ready
    rw [isLeft, ih deeper]
    rfl

/-- Every table is looked at in the slot at its distance from the first one. -/
theorem traverse_found {next left : List ReqTbl} (chained : Chained (tbl :: next))
    (inRing : idx < maxReqSlots) (short : tbl.pd ≤ maxReqSlots)
    (ready : traverse slot false (tbl :: next) idx applyData = some (found, left)) :
    ∀ other ∈ tbl :: next,
      found other.pd = foundAt slot (decIdx idx (tbl.pd - other.pd)) other.skipTraverse
        ∧ passes slot other (decIdx idx (tbl.pd - other.pd)) := by
  induction next generalizing tbl idx found left with
  | nil =>
    obtain ⟨passed, before, rest, _, isFound, _⟩ := traverse_cons ready
    intro other among
    rw [mem_singleton.mp among, Nat.sub_self]
    refine ⟨?_, passed⟩
    rw [isFound]
    exact update_self _ _ _
  | cons after next ih =>
    obtain ⟨passed, before, rest, deeper, isFound, _⟩ := traverse_cons ready
    obtain ⟨below, isDelta, later⟩ := chained
    rw [isDelta] at deeper
    have afterInRing : decIdx idx (tbl.pd - after.pd) < maxReqSlots := by
      unfold decIdx at *
      split <;> omega
    have found_later := ih later afterInRing (by omega) deeper
    intro other among
    rcases mem_cons.mp among with rfl | isLater
    · rw [Nat.sub_self]
      refine ⟨?_, passed⟩
      rw [isFound]
      exact update_self _ _ _
    · have notMore : other.pd ≤ after.pd := by
        rcases mem_cons.mp isLater with rfl | deeperStill
        · exact Nat.le_refl _
        · exact Nat.le_of_lt (later.lt other deeperStill)
      have distance : decIdx (decIdx idx (tbl.pd - after.pd)) (after.pd - other.pd)
          = decIdx idx (tbl.pd - other.pd) := by
        rw [decIdx_decIdx inRing (by omega)]
        congr 1
        omega
      have spec := found_later other isLater
      rw [distance] at spec
      refine ⟨?_, spec.2⟩
      rw [isFound]
      have isOther : other.pd ≠ tbl.pd := by omega
      exact (update_of_ne isOther _ _).trans spec.1

variable (trigger : Trigger)

theorem injectDelay_skip (lTbl : List ReqTbl) (idx : Nat) :
    (injectDelay trigger lTbl idx).1.map ReqTbl.skip = lTbl.map ReqTbl.skip := by
  induction lTbl generalizing idx with
  | nil => rfl
  | cons tbl next ih => exact congrArg (_ :: ·) (ih _)

theorem bare_delayed (slot : TblSlot) : (delayed trigger slot).1.bare = slot.bare := by
  unfold delayed
  cases trigger with
  | sof =>
    dsimp only
    split <;> rfl
  | eof =>
    dsimp only
    split <;> rfl

theorem injectDelay_bare (lTbl : List ReqTbl) (idx : Nat) :
    (injectDelay trigger lTbl idx).1.map bare = lTbl.map bare := by
  induction lTbl generalizing idx with
  | nil => rfl
  | cons tbl next ih =>
    rw [injectDelay]
    simp only [map_cons, ih, cons.injEq, and_true]
    unfold bare
    congr 1
    funext other
    dsimp only
    rw [update_apply]
    split
    case isTrue isIdx => rw [isIdx, bare_delayed]
    case isFalse => rfl

/-! ## Preparing a request -/

/-- The link has its places in the queue and what its tables know of the requests. -/
structure Stays (link next : Link) : Prop extends link.Keeps next where
  rdIdx : next.rdIdx = link.rdIdx
  wrIdx : next.wrIdx = link.wrIdx
  lastAppliedIdx : next.lastAppliedIdx = link.lastAppliedIdx
  lastFlushId : next.lastFlushId = link.lastFlushId
  eofEventCnt : next.eofEventCnt = link.eofEventCnt
  contEmptySlots : next.contEmptySlots = link.contEmptySlots
  state : next.state = link.state
  bare : next.lTbl.map bare = link.lTbl.map bare

theorem Stays.refl (link : Link) : link.Stays link :=
  ⟨.refl link, rfl, rfl, rfl, rfl, rfl, rfl, rfl, rfl⟩

theorem Stays.trans {last : Link} (first : link.Stays next) (second : next.Stays last) :
    link.Stays last where
  toKeeps := first.toKeeps.trans second.toKeeps
  rdIdx := second.rdIdx.trans first.rdIdx
  wrIdx := second.wrIdx.trans first.wrIdx
  lastAppliedIdx := second.lastAppliedIdx.trans first.lastAppliedIdx
  lastFlushId := second.lastFlushId.trans first.lastFlushId
  eofEventCnt := second.eofEventCnt.trans first.eofEventCnt
  contEmptySlots := second.contEmptySlots.trans first.contEmptySlots
  state := second.state.trans first.state
  bare := second.bare.trans first.bare

theorem stays_setStatus (link : Link) (idx : Nat) (status : SlotStatus) :
    link.Stays (link.setStatus idx status) :=
  ⟨keeps_setStatus link idx status, rfl, rfl, rfl, rfl, rfl, rfl, rfl, rfl⟩

theorem stays_injectDelay (link : Link) (trigger : Trigger) (idx : Nat) :
    link.Stays (link.setTables (injectDelay trigger link.lTbl idx).1) :=
  ⟨keeps_injectDelay link trigger idx, rfl, rfl, rfl, rfl, rfl, rfl, rfl,
    injectDelay_bare trigger link.lTbl idx⟩

/-- The request at the read index is waiting to be sent. -/
def Pending (link : Link) : Prop :=
  (link.slot link.rdIdx).status = .reqAdded ∨ (link.slot link.rdIdx).status = .reqPending

/-- The trigger sends nothing. -/
structure Waits (link next : Link) : Prop extends link.Stays next where
  slot : next.slot = link.slot
    ∨ link.Pending ∧ next.slot = (link.setStatus link.rdIdx .reqPending).slot
  skip : next.lTbl.map ReqTbl.skip = link.lTbl.map ReqTbl.skip

theorem Waits.refl (link : Link) : link.Waits link := ⟨.refl link, .inl rfl, rfl⟩

/-- Where a table of this pipeline delay is looked at. -/
def readAt (link : Link) (pd : Nat) : Nat := decIdx link.rdIdx (link.maxDelay - pd)

/-- The trigger finds a request for every table. -/
structure Finds (link ready : Link) : Prop extends link.Stays ready where
  slot : ready.slot = (link.setStatus link.rdIdx .reqReady).slot
  skip : ready.lTbl.map ReqTbl.skip = link.lTbl.map fun tbl => (lessSkip tbl).skip
  found : ∀ tbl ∈ link.lTbl,
    ready.applyData tbl.pd = foundAt link.slot (link.readAt tbl.pd) tbl.skipTraverse
  passed : ∀ tbl ∈ link.lTbl, (tbl.slot (link.readAt tbl.pd)).state = .ready
    ∨ (link.slot (link.readAt tbl.pd)).skipIdx = true ∨ 0 < tbl.skipTraverse

theorem checkLinkIsReady_true (link : Link) (idx : Nat) :
    link.checkLinkIsReady idx true =
      match traverse link.slot true link.lTbl idx link.applyData with
      | none => (link, false)
      | some (applyData, lTbl) => ({ link with applyData := applyData, lTbl := lTbl }, true) := rfl

theorem checkLinkIsReady_search (link : Link) (idx : Nat) :
    link.checkLinkIsReady idx false =
      match traverse link.slot false link.lTbl idx fun _ => ⟨0, 0⟩ with
      | none => ({ link with applyData := fun _ => ⟨0, 0⟩ }, false)
      | some (applyData, lTbl) => ({ link with applyData := applyData, lTbl := lTbl }, true) := rfl

theorem checkLinkIsReady_validate {link ready : Link}
    (checks : link.checkLinkIsReady idx true = (ready, true)) : ready = link := by
  rw [checkLinkIsReady_true] at checks
  cases traversed : traverse link.slot true link.lTbl idx link.applyData with
  | none =>
    rw [traversed] at checks
    cases checks
  | some result =>
    obtain ⟨found, left⟩ := result
    rw [traversed] at checks
    cases checks
    obtain ⟨rfl, rfl⟩ := traverse_validate traversed
    rfl

/-- A check that fails leaves the link, but for what has been found before. -/
theorem checkLinkIsReady_false {link next : Link} {validateOnly : Bool}
    (checks : link.checkLinkIsReady idx validateOnly = (next, false)) :
    ∃ applyData, next = { link with applyData := applyData } := by
  cases validateOnly with
  | true =>
    rw [checkLinkIsReady_true] at checks
    split at checks
    case h_1 =>
      cases checks
      exact ⟨link.applyData, rfl⟩
    case h_2 => cases checks
  | false =>
    rw [checkLinkIsReady_search] at checks
    split at checks
    case h_1 =>
      cases checks
      exact ⟨_, rfl⟩
    case h_2 => cases checks

theorem stays_applyData (link : Link) (applyData : Nat → Apply) :
    link.Stays { link with applyData := applyData } :=
  ⟨.of_eq rfl rfl rfl rfl rfl, rfl, rfl, rfl, rfl, rfl, rfl, rfl, rfl⟩

/-- A link that has only changed in the delays that are left finds what the link before does. -/
theorem finds_of_checkLinkIsReady {delayed ready : Link} (framed : link.Framed)
    (inRing : link.rdIdx < maxReqSlots) (stays : link.Stays delayed)
    (slot : delayed.slot = link.slot)
    (skip : delayed.lTbl.map ReqTbl.skip = link.lTbl.map ReqTbl.skip)
    (checks : delayed.checkLinkIsReady delayed.rdIdx false = (ready, true)) :
    link.Finds (ready.setStatus ready.rdIdx .reqReady) := by
  have keeps := keeps_checkLinkIsReady delayed delayed.rdIdx false
  rw [checks] at keeps
  rw [checkLinkIsReady_search] at checks
  cases traversed : traverse delayed.slot false delayed.lTbl delayed.rdIdx fun _ => ⟨0, 0⟩ with
  | none =>
    rw [traversed] at checks
    cases checks
  | some result =>
    obtain ⟨found, left⟩ := result
    rw [traversed] at checks
    have isLeft := traverse_left traversed
    cases checks
    have staysReady : delayed.Stays { delayed with applyData := found, lTbl := left } := by
      refine ⟨keeps, rfl, rfl, rfl, rfl, rfl, rfl, rfl, ?_⟩
      rw [isLeft, map_map]
      exact map_congr_left fun tbl _ => rfl
    have spec : ∀ tbl ∈ delayed.lTbl,
        found tbl.pd = foundAt link.slot (link.readAt tbl.pd) tbl.skipTraverse
          ∧ passes link.slot tbl (link.readAt tbl.pd) := by
      have framedDelayed := framed.keep stays.toKeepsShape
      have small := framedDelayed.delayValid
      have chained := framedDelayed.chained
      have first := framedDelayed.first
      cases tables : delayed.lTbl with
      | nil => exact fun _ among => absurd among not_mem_nil
      | cons head rest =>
        rw [tables] at chained first traversed
        have isMax : head.pd = delayed.maxDelay := first head rfl
        have readInRing : delayed.rdIdx < maxReqSlots := stays.rdIdx ▸ inRing
        have short : head.pd ≤ maxReqSlots := by
          rw [isMax]
          exact Nat.le_of_lt (Nat.lt_trans small (by decide))
        have all := traverse_found chained readInRing short traversed
        unfold readAt
        rw [← stays.rdIdx, ← stays.maxDelay, ← slot, ← isMax]
        exact all
    have move : ∀ tbl ∈ link.lTbl, ∃ other ∈ delayed.lTbl, other.skip = tbl.skip ∧
        ∀ idx, (other.slot idx).bare = (tbl.slot idx).bare := by
      intro tbl among
      have isSkip : tbl.skip ∈ delayed.lTbl.map ReqTbl.skip := by
        rw [skip]
        exact mem_map_of_mem among
      obtain ⟨other, otherAmong, same⟩ := mem_map.mp isSkip
      refine ⟨other, otherAmong, same, ?_⟩
      intro idx
      have isPd : other.pd = tbl.pd := congrArg Prod.fst same
      have chained := (framed.keep stays.toKeepsShape).chained
      rw [← tblSlot_of_mem framed.chained among, ← tblSlot_of_mem chained otherAmong, isPd]
      exact bare_tblSlot_congr stays.bare tbl.pd idx
    constructor
    case toStays => exact (stays.trans staysReady).trans (stays_setStatus _ _ _)
    case slot =>
      unfold setStatus updateSlot
      rw [slot, stays.rdIdx]
    case skip =>
      show left.map ReqTbl.skip = _
      have lessSkips : ∀ lTbl : List ReqTbl, (lTbl.map lessSkip).map ReqTbl.skip
          = (lTbl.map ReqTbl.skip).map fun skip => (skip.1, skip.2 - 1) := by
        intro lTbl
        rw [map_map, map_map]
        rfl
      have again := lessSkips link.lTbl
      rw [map_map] at again
      rw [isLeft, lessSkips, skip, ← again]
      rfl
    case found =>
      intro tbl among
      obtain ⟨other, otherAmong, isSkip, _⟩ := move tbl among
      have isPd : other.pd = tbl.pd := congrArg Prod.fst isSkip
      have sameSkip : other.skipTraverse = tbl.skipTraverse := congrArg Prod.snd isSkip
      rw [← isPd, ← sameSkip]
      exact (spec other otherAmong).1
    case passed =>
      intro tbl among
      obtain ⟨other, otherAmong, isSkip, isBare⟩ := move tbl among
      have isPd : other.pd = tbl.pd := congrArg Prod.fst isSkip
      have sameSkip : other.skipTraverse = tbl.skipTraverse := congrArg Prod.snd isSkip
      have passed := (spec other otherAmong).2
      have sameState := congrArg TblSlot.state (isBare (link.readAt tbl.pd))
      rw [isPd] at passed
      unfold passes at passed
      rw [sameSkip] at passed
      rw [← show _ = (tbl.slot (link.readAt tbl.pd)).state from sameState]
      exact passed

/-- What is to hold when a request has been prepared, or not. -/
def Prepared (link : Link) (outcome : Link × Bool) : Prop :=
  if outcome.2 then link.Pending ∧ link.Finds outcome.1 else link.Waits outcome.1

/-- A request that is not ready yet stays where it is, or it is found for every table. -/
theorem prepareReq_spec (framed : link.Framed) (inRing : link.rdIdx < maxReqSlots)
    (notReady : (link.slot link.rdIdx).status ≠ .reqReady) :
    link.Prepared (link.prepareReq .sof) := by
  have noEof : ¬(Trigger.sof = Trigger.eof ∧ link.eofEventCnt = 0) := fun isEof => nomatch isEof.1
  unfold prepareReq
  dsimp only
  by_cases isApplied : (link.slot link.rdIdx).status = .reqApplied
  · rw [if_pos isApplied]
    exact Waits.refl link
  by_cases isNone : (link.slot link.rdIdx).status = .noReq
  · rw [if_neg noEof, if_neg isApplied, if_pos ⟨rfl, isNone⟩]
    exact Waits.refl link
  have isPending : link.Pending := by
    unfold Pending
    cases status : (link.slot link.rdIdx).status with
    | noReq => exact absurd status isNone
    | reqApplied => exact absurd status isApplied
    | reqReady => exact absurd status notReady
    | reqAdded => exact .inl rfl
    | reqPending => exact .inr rfl
  have pending : ∀ next : Link, link.Stays next → next.slot = link.slot →
      next.lTbl.map ReqTbl.skip = link.lTbl.map ReqTbl.skip →
      link.Waits (next.setStatus next.rdIdx .reqPending) := by
    intro next stays slot skip
    refine ⟨stays.trans (stays_setStatus _ _ _), .inr ⟨isPending, ?_⟩, skip⟩
    unfold setStatus updateSlot
    rw [slot, stays.rdIdx]
  rw [if_neg noEof, if_neg isApplied, if_neg (isNone ·.2), if_neg notReady]
  rcases first : link.checkLinkIsReady link.rdIdx true with ⟨checked, isReady⟩
  cases isReady with
  | false =>
    obtain ⟨applyData, rfl⟩ := checkLinkIsReady_false first
    exact pending _ (stays_applyData link applyData) rfl rfl
  | true =>
    rw [checkLinkIsReady_validate first]
    dsimp only
    have injected := stays_injectDelay link .sof link.rdIdx
    have skipInjected := injectDelay_skip .sof link.lTbl link.rdIdx
    set delayed := link.setTables (injectDelay .sof link.lTbl link.rdIdx).1
    by_cases held : (injectDelay .sof link.lTbl link.rdIdx).2
    · rw [if_pos held]
      exact pending _ injected rfl skipInjected
    · rw [if_neg held]
      rcases second : delayed.checkLinkIsReady delayed.rdIdx false with ⟨ready, isReady⟩
      cases isReady with
      | false =>
        obtain ⟨applyData, rfl⟩ := checkLinkIsReady_false second
        exact pending _ (injected.trans (stays_applyData _ applyData)) rfl skipInjected
      | true => exact ⟨isPending, finds_of_checkLinkIsReady framed inRing injected rfl skipInjected second⟩

theorem prepareReq_of_applied (isApplied : (link.slot link.rdIdx).status = .reqApplied) :
    link.prepareReq trigger = (link, false) := by
  unfold prepareReq
  dsimp only
  rw [if_pos isApplied, ite_self]

theorem prepareReq_of_noReq (isNone : (link.slot link.rdIdx).status = .noReq) :
    link.prepareReq .sof = (link, false) := by
  have noEof : ¬(Trigger.sof = Trigger.eof ∧ link.eofEventCnt = 0) := fun isEof => nomatch isEof.1
  unfold prepareReq
  rw [if_neg noEof, if_neg (by simp [isNone]), if_pos ⟨rfl, isNone⟩]

theorem prepareReq_eof (noEvents : link.eofEventCnt = 0) :
    link.prepareReq .eof = (link, false) := by
  unfold prepareReq
  rw [if_pos ⟨rfl, noEvents⟩]

/-! ## Sending a request -/

/-- No device has asked for a special operation. -/
def Quiet (link : Link) : Prop := ∀ pd idx, (link.tblSlot pd idx).ops = ⟨[], false⟩

theorem Quiet.congr (quiet : link.Quiet)
    (bare : next.lTbl.map bare = link.lTbl.map bare) : next.Quiet :=
  fun pd idx => (congrArg TblSlot.ops (bare_tblSlot_congr bare pd idx)).trans (quiet pd idx)

/-- The devices take what has been found for them. -/
def marked (link : Link) (served : List Device) : Link := served.foldl markApplied link

/-- Only the tables change. -/
theorem marked_eq (link : Link) (served : List Device) :
    link.marked served = link.setTables (link.marked served).lTbl := by
  induction served generalizing link with
  | nil => rfl
  | cons dev rest ih => exact ih (link.markApplied dev)

theorem keeps_marked (link : Link) (served : List Device) : link.Keeps (link.marked served) := by
  induction served generalizing link with
  | nil => exact .refl link
  | cons dev rest ih => exact (keeps_markApplied link dev).trans (ih (link.markApplied dev))

theorem skip_marked (link : Link) (served : List Device) :
    (link.marked served).lTbl.map ReqTbl.skip = link.lTbl.map ReqTbl.skip := by
  induction served generalizing link with
  | nil => rfl
  | cons dev rest ih =>
    exact (ih (link.markApplied dev)).trans (skip_updateTblSlot link _ _ _)

theorem hasTbl_updateTblSlot (link : Link) (pd idx other : Nat) (change : TblSlot → TblSlot) :
    (link.updateTblSlot pd idx change).HasTbl other ↔ link.HasTbl other :=
  (keeps_updateTblSlot link pd idx change).hasTbl other

/-- Nothing but the map of a slot of a table changes. -/
theorem tblSlot_marked (link : Link) (served : List Device) (pd idx : Nat) :
    ∃ map, (link.marked served).tblSlot pd idx = { link.tblSlot pd idx with reqApplyMap := map } := by
  induction served generalizing link with
  | nil => exact ⟨(link.tblSlot pd idx).reqApplyMap, rfl⟩
  | cons dev rest ih =>
    obtain ⟨map, isMap⟩ := ih (link.markApplied dev)
    refine ⟨map, isMap.trans ?_⟩
    unfold markApplied
    rw [tblSlot_updateTblSlot]
    split
    case isTrue here =>
      rw [here.1, here.2.1]
      rfl
    case isFalse => rfl

/-- The map has the bits of the devices that have taken the request of the slot. -/
theorem applied_marked (link : Link) (served : List Device) (pd idx nr : Nat) :
    ((link.marked served).tblSlot pd idx).applied nr = true
      ↔ (link.tblSlot pd idx).applied nr = true ∨ nr < 32 ∧ idx = (link.applyData pd).idx
        ∧ link.HasTbl pd ∧ ∃ dev ∈ served, dev.pDelay = pd ∧ dev.devBit = nr := by
  unfold marked
  induction served generalizing link with
  | nil => simp
  | cons dev rest ih =>
    have sameData : (link.markApplied dev).applyData = link.applyData := rfl
    rw [foldl_cons, ih (link.markApplied dev), sameData]
    unfold markApplied
    rw [hasTbl_updateTblSlot, tblSlot_updateTblSlot]
    split
    case isTrue here =>
      obtain ⟨rfl, rfl, has⟩ := here
      rw [TblSlot.setApplied_applied]
      simp only [Bool.or_eq_true, Bool.and_eq_true, decide_eq_true_eq, true_and, mem_cons,
        exists_eq_or_imp, has, and_or_left, or_assoc]
    case isFalse elsewhere =>
      simp only [mem_cons, exists_eq_or_imp]
      constructor
      · rintro (before | ⟨small, isIdx, has, later⟩)
        · exact .inl before
        · exact .inr ⟨small, isIdx, has, .inr later⟩
      · rintro (before | ⟨small, isIdx, has, ⟨isPd, _⟩ | later⟩)
        · exact .inl before
        · exact absurd ⟨isPd.symm, isPd ▸ isIdx, isPd ▸ has⟩ elsewhere
        · exact .inr ⟨small, isIdx, has, later⟩

theorem sendSpecial_of_quiet (quiet : link.Quiet) (trigger : Trigger) (answers : Answers)
    (devs : List Device) : sendSpecial trigger answers link devs = (link, [], .next) := by
  induction devs with
  | nil => rfl
  | cons dev rest ih =>
    rw [sendSpecial]
    rw [if_pos (.inl (congrArg SpecialOps.devHdl (quiet _ _)))]
    exact ih

theorem sendRegular_link (answers : Answers) {devs : List Device}
    (distinct : Distinct devs) (sent : Sent) :
    (sendRegular trigger answers devs sent).link
      = sent.link.marked ((devs.filter (sent.link.due trigger)).takeWhile
          fun dev => 0 ≤ answers dev) := by
  induction devs generalizing sent with
  | nil => rfl
  | cons dev rest ih =>
    rw [sendRegular, filter_cons]
    split
    case isTrue =>
      split
      case isTrue fails => simp [Int.not_le.mpr fails, marked]
      case isFalse takes =>
        rw [ih distinct.tail, filter_due_take distinct,
          takeWhile_cons_of_pos (by simpa using takes)]
        rfl
    case isFalse => exact ih distinct.tail sent

/-- The devices that take a request. -/
def served (link : Link) (trigger : Trigger) (answers : Answers) : List Device :=
  (link.called trigger).takeWhile fun dev => 0 ≤ answers dev

/-- Without special operations the devices that are due are called in turn until one fails. -/
theorem sendReq_of_quiet (quiet : link.Quiet) (distinct : Distinct link.devs) (trigger : Trigger)
    (answers : Answers) :
    (link.sendReq trigger answers).2.1 = (link.served trigger answers).map link.foundFor
      ∧ ((link.sendReq trigger answers).2.2 < 0 ↔ ∃ dev ∈ link.called trigger, answers dev < 0)
      ∧ ∃ prevApplyData openReqCnt, (link.sendReq trigger answers).1 =
        { link.marked (link.served trigger answers) with
          prevApplyData := prevApplyData, openReqCnt := openReqCnt } := by
  have isGiven := sendRegular_given trigger answers distinct ⟨link, [], -1, 0⟩
  have isRc := sendRegular_rc trigger answers distinct ⟨link, [], -1, 0⟩ (Int.le_refl 0)
  have isLink := sendRegular_link trigger answers distinct ⟨link, [], -1, 0⟩
  unfold sendReq
  rw [sendSpecial_of_quiet quiet]
  dsimp only at isGiven isRc isLink ⊢
  split_ifs with fails serves
  · exact ⟨isGiven, isRc, _, _, isLink⟩
  · refine ⟨isGiven, isRc, (link.marked (link.served trigger answers)).applyData,
      (link.marked (link.served trigger answers)).openReqCnt - 1, ?_⟩
    rw [isLink]
    rfl
  · refine ⟨isGiven, isRc, (link.marked (link.served trigger answers)).applyData,
      (link.marked (link.served trigger answers)).openReqCnt, ?_⟩
    rw [isLink]
    rfl

/-- The slots that are read have no other devices than those that are served. -/
theorem tblSlot_marked_of_unread (link : Link) {served : List Device} {pd idx : Nat}
    (unread : ∀ dev ∈ served, dev.pDelay = pd → idx ≠ (link.applyData pd).idx) :
    (link.marked served).tblSlot pd idx = link.tblSlot pd idx := by
  unfold marked
  induction served generalizing link with
  | nil => rfl
  | cons dev rest ih =>
    have later := ih (link.markApplied dev) fun other among =>
      unread other (mem_cons_of_mem _ among)
    rw [foldl_cons, later]
    unfold markApplied
    rw [tblSlot_updateTblSlot, if_neg]
    rintro ⟨isPd, isIdx, _⟩
    rw [← isPd] at isIdx
    exact unread dev mem_cons_self isPd.symm isIdx

/-! ## The end of a trigger -/

/-- The request at the read index has been applied to all devices. -/
def concluded (link : Link) : Link :=
  ((link.setStatus link.rdIdx .reqApplied).setLastApplied (some link.rdIdx)).resetReqSlot
    (decIdx link.rdIdx (link.maxDelay + 1))

theorem finishReq_eq (link : Link) (rc : Int) :
    link.finishReq rc =
      if rc < 0 then link.setStatus link.rdIdx .reqPending
      else if link.recovered.isApplied then link.recovered.concluded else link.recovered := rfl

theorem recovered_eq (link : Link) : ∃ state, link.recovered = { link with state := state } := by
  unfold recovered
  split
  · exact ⟨.ready, rfl⟩
  · exact ⟨link.state, rfl⟩

/-- The slot that is given up when the request at the read index has been applied. -/
def lastServed (link : Link) : Nat := decIdx link.rdIdx (link.maxDelay + 1)

/-- A request has been applied to all devices: what is left of the link for which it was found. -/
structure Sends (link ready next : Link) : Prop extends link.KeepsShape next where
  finds : link.Finds ready
  rdIdx : next.rdIdx = link.rdIdx
  wrIdx : next.wrIdx = link.wrIdx
  lastAppliedIdx : next.lastAppliedIdx = some link.rdIdx
  lastFlushId : next.lastFlushId = link.lastFlushId
  eofEventCnt : next.eofEventCnt = link.eofEventCnt
  contEmptySlots : next.contEmptySlots = link.contEmptySlots
  slot : ∀ idx, next.slot idx =
    if (link.slot idx).status ≠ .reqAdded ∧ idx = link.lastServed then ⟨-1, false, .noReq, false⟩
    else if idx = link.rdIdx then { link.slot idx with status := .reqApplied }
    else link.slot idx
  tblSlot : ∀ pd idx, next.tblSlot pd idx =
    if (link.slot idx).status ≠ .reqAdded ∧ idx = link.lastServed then .unused
    else (ready.marked (ready.called .sof)).tblSlot pd idx
  skip : next.lTbl.map ReqTbl.skip = ready.lTbl.map ReqTbl.skip

theorem lastServed_ne (framed : link.Framed) : link.lastServed ≠ link.rdIdx := by
  have small := framed.delayValid
  unfold lastServed decIdx camPipelineDelayMax maxReqSlots at *
  split <;> omega

variable {answers : Answers}

theorem processReq_of_none (framed : link.Framed) (inRing : link.rdIdx < maxReqSlots)
    (notReady : (link.slot link.rdIdx).status ≠ .reqReady)
    (nothing : (link.processReq .sof answers).2.2 = none) :
    (link.processReq .sof answers).2.1 = [] ∧ link.Waits (link.processReq .sof answers).1 := by
  have prepared := prepareReq_spec framed inRing notReady
  unfold processReq at nothing ⊢
  by_cases isIdle : link.state = .idle
  · rw [if_pos isIdle]
    exact ⟨rfl, .refl link⟩
  · rw [if_neg isIdle] at nothing ⊢
    rcases isNext : link.prepareReq .sof with ⟨next, reached⟩
    rw [isNext] at prepared nothing
    cases reached with
    | false => exact ⟨rfl, prepared⟩
    | true => cases nothing

theorem served_of_succeeds (answers : Answers)
    (accept : ¬∃ dev ∈ link.called trigger, answers dev < 0) :
    link.served trigger answers = link.called trigger := by
  apply takeWhile_eq_self_iff.mpr
  intro dev among
  apply decide_eq_true
  by_contra refuses
  exact accept ⟨dev, among, Int.not_le.mp refuses⟩

theorem sends_concluded {ready sent : Link} (framed : link.Framed) (finds : link.Finds ready)
    {prevApplyData : Nat → Apply} {openReqCnt : BitVec 32} {state : LinkState}
    (isSent : sent = { ready.setTables (ready.marked (ready.called .sof)).lTbl with
      prevApplyData := prevApplyData, openReqCnt := openReqCnt, state := state }) :
    link.Sends ready sent.concluded := by
  have isOther := lastServed_ne framed
  have isSlot : sent.slot = (link.setStatus link.rdIdx .reqReady).slot := by
    rw [isSent]
    exact finds.slot
  have isRead : sent.rdIdx = link.rdIdx := by
    rw [isSent]
    exact finds.rdIdx
  have isMax : sent.maxDelay = link.maxDelay := by
    rw [isSent]
    exact finds.maxDelay
  have isLast : decIdx sent.rdIdx (sent.maxDelay + 1) = link.lastServed := by
    rw [isRead, isMax]
    rfl
  set applied := (sent.setStatus sent.rdIdx .reqApplied).setLastApplied (some sent.rdIdx)
    with isApplied
  have appliedSlot : ∀ idx, applied.slot idx =
      if idx = link.rdIdx then { link.slot idx with status := .reqApplied } else link.slot idx := by
    intro idx
    rw [isApplied]
    unfold setLastApplied setStatus updateSlot
    rw [isSlot, isRead]
    unfold setStatus updateSlot
    dsimp only
    rw [update_apply]
    split
    case isTrue isIdx => simp [isIdx]
    case isFalse isElse => exact update_of_ne isElse _ _
  have givesUp : applied.GivesUp link.lastServed ↔ (link.slot link.lastServed).status ≠ .reqAdded := by
    unfold GivesUp
    rw [appliedSlot, if_neg isOther]
    have isNotLast : applied.lastAppliedIdx ≠ some link.lastServed := by
      intro same
      exact isOther (isRead.symm.trans (Option.some.inj same)).symm
    exact and_iff_left isNotLast
  have concludes : sent.concluded = applied.resetReqSlot link.lastServed := by
    unfold concluded
    rw [isLast]
  have keepsSent : link.KeepsShape sent := by
    have marks := finds.toKeepsShape.trans (keeps_marked ready (ready.called .sof)).toKeepsShape
    rw [isSent]
    exact ⟨finds.devs, finds.maxDelay, finds.minDelay, marks.shape⟩
  obtain ⟨slot, lTbl, isReset⟩ := applied.resetReqSlot_eq link.lastServed
  rw [concludes]
  constructor
  case toKeepsShape =>
    exact (keepsSent.trans (keeps_setStatus _ _ _).toKeepsShape).trans
      ((keeps_setLastApplied _ _).trans (keeps_resetReqSlot _ _)).toKeepsShape
  case finds => exact finds
  case rdIdx =>
    rw [isReset]
    exact isRead
  case wrIdx =>
    rw [isReset, isApplied, isSent]
    exact finds.wrIdx
  case lastAppliedIdx =>
    rw [isReset]
    exact congrArg some isRead
  case lastFlushId =>
    rw [isReset, isApplied, isSent]
    exact finds.lastFlushId
  case eofEventCnt =>
    rw [isReset, isApplied, isSent]
    exact finds.eofEventCnt
  case contEmptySlots =>
    rw [isReset, isApplied, isSent]
    exact finds.contEmptySlots
  case slot =>
    intro idx
    simp only [slot_resetReqSlot, givesUp, appliedSlot]
    by_cases isIdx : idx = link.lastServed
    · rw [isIdx]
    · simp [isIdx]
  case tblSlot =>
    intro pd idx
    have isTbl : applied.tblSlot pd idx = (ready.marked (ready.called .sof)).tblSlot pd idx := by
      rw [isApplied, isSent]
      rfl
    simp only [tblSlot_resetReqSlot, givesUp, isTbl]
    by_cases isIdx : idx = link.lastServed
    · rw [isIdx]
    · simp [isIdx]
  case skip =>
    rw [skip_resetReqSlot, isApplied, isSent]
    exact skip_marked ready (ready.called .sof)

/-- A request that is sent has been found for every table. -/
theorem processReq_of_some {rc : Int} (framed : link.Framed) (inRing : link.rdIdx < maxReqSlots)
    (notReady : (link.slot link.rdIdx).status ≠ .reqReady)
    (isRc : (link.processReq .sof answers).2.2 = some rc) :
    ∃ ready, link.Pending ∧ link.Finds ready ∧ (ready.sendReq .sof answers).2.2 = rc
      ∧ link.processReq .sof answers
        = ((ready.sendReq .sof answers).1.finishReq rc, (ready.sendReq .sof answers).2.1, some rc) := by
  have prepared := prepareReq_spec framed inRing notReady
  unfold processReq at isRc ⊢
  by_cases isIdle : link.state = .idle
  · rw [if_pos isIdle] at isRc
    cases isRc
  rw [if_neg isIdle] at isRc ⊢
  rcases isNext : link.prepareReq .sof with ⟨ready, reached⟩
  rw [isNext] at prepared isRc
  cases reached with
  | false => cases isRc
  | true =>
    have sameRc : (ready.sendReq .sof answers).2.2 = rc := Option.some.inj isRc
    refine ⟨ready, prepared.1, prepared.2, sameRc, ?_⟩
    rw [← sameRc]

/-- What is left of the link when all devices that are due take their request. -/
theorem sendReq_of_accept {ready : Link} (quiet : ready.Quiet) (distinct : Distinct ready.devs)
    (accept : ¬∃ dev ∈ ready.called .sof, answers dev < 0) :
    (ready.sendReq .sof answers).2.1 = (ready.called .sof).map ready.foundFor
      ∧ ∃ prevApplyData openReqCnt state, (ready.sendReq .sof answers).1.recovered =
        { ready.setTables (ready.marked (ready.called .sof)).lTbl with
          prevApplyData := prevApplyData, openReqCnt := openReqCnt, state := state } := by
  obtain ⟨given, _, prevApplyData, openReqCnt, isSent⟩ :=
    sendReq_of_quiet quiet distinct .sof answers
  rw [served_of_succeeds .sof answers accept] at given isSent
  obtain ⟨state, isRecovered⟩ := recovered_eq (ready.sendReq .sof answers).1
  refine ⟨given, prevApplyData, openReqCnt, state, ?_⟩
  rw [isRecovered, isSent, marked_eq]
  rfl

/-- A request that has been applied to all devices has been found for every table and given to the
devices that were due. -/
theorem processReq_of_succeeds {rc : Int} (framed : link.Framed) (quiet : link.Quiet)
    (inRing : link.rdIdx < maxReqSlots) (notReady : (link.slot link.rdIdx).status ≠ .reqReady)
    (isRc : (link.processReq .sof answers).2.2 = some rc) (succeeds : 0 ≤ rc)
    (isApplied : ((link.processReq .sof answers).1.slot (link.processReq .sof answers).1.rdIdx).status = .reqApplied)
    :
    ∃ ready, link.Pending ∧ link.Sends ready (link.processReq .sof answers).1
      ∧ (link.processReq .sof answers).2.1 = (ready.called .sof).map ready.foundFor := by
  obtain ⟨ready, isPending, finds, sameRc, isOutcome⟩ :=
    processReq_of_some framed inRing notReady isRc
  rw [isOutcome] at isApplied ⊢
  have readyQuiet := quiet.congr finds.bare
  have readyDistinct : Distinct ready.devs := (framed.keep finds.toKeepsShape).distinct
  have accept : ¬∃ dev ∈ ready.called .sof, answers dev < 0 := by
    rw [← (sendReq_of_quiet readyQuiet readyDistinct .sof answers).2.1, sameRc]
    exact Int.not_lt.mpr succeeds
  obtain ⟨given, prevApplyData, openReqCnt, state, isMarked⟩ :=
    sendReq_of_accept readyQuiet readyDistinct accept
  refine ⟨ready, isPending, ?_, given⟩
  rw [finishReq_eq, if_neg (Int.not_lt.mpr succeeds)] at isApplied ⊢
  by_cases all : (ready.sendReq .sof answers).1.recovered.isApplied
  case pos =>
    rw [if_pos all]
    exact sends_concluded framed finds isMarked
  case neg =>
    rw [if_neg all, isMarked] at isApplied
    have atRead : (ready.slot ready.rdIdx).status = .reqReady := by
      rw [finds.slot, finds.rdIdx]
      unfold setStatus updateSlot
      dsimp only
      rw [update_self]
    exact nomatch atRead.symm.trans isApplied

end Link

end Sm8650.Crm
