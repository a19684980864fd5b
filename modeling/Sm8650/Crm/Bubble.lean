import Sm8650.Crm.OpenCount
import Sm8650.Crm.Pipeline

/-!
# Recovery from a bubble

A device reports that a request has come too late for its frame. The link goes back to the
request and sends it, and those after it, again. The devices get them in the order of the slots,
each at its pipeline delay, if none of the slots still has what the devices were sent before the
bubble and if the requests of the triggers that follow do not give up a slot that is needed.
-/

namespace Sm8650.Crm

open Transition List Function Link Pipeline

variable {idx : Nat}

namespace Link

/-! ## Links without operations at the end of a frame -/

/-- The places of a link are in the ring and no device has asked for a special operation. -/
structure Calm (link : Link) : Prop where
  framed : link.Framed
  quiet : link.Quiet
  atSof : ∀ dev ∈ link.devs, dev.atSof
  noEvents : link.eofEventCnt = 0
  rdInRing : link.rdIdx < maxReqSlots
  wrInRing : link.wrIdx < maxReqSlots
  lastInRing : ∀ last ∈ link.lastAppliedIdx, last < maxReqSlots

variable {link next : Link}

theorem Calm.stay (calm : link.Calm) (stays : link.Stays next) : next.Calm where
  framed := calm.framed.keep stays.toKeepsShape
  quiet := calm.quiet.congr stays.bare
  atSof := stays.devs ▸ calm.atSof
  noEvents := stays.eofEventCnt.trans calm.noEvents
  rdInRing := stays.rdIdx ▸ calm.rdInRing
  wrInRing := stays.wrIdx ▸ calm.wrInRing
  lastInRing := stays.lastAppliedIdx ▸ calm.lastInRing

/-- The tables change in slots only, and no special operation comes in. -/
theorem Calm.retable (calm : link.Calm) (keeps : link.KeepsShape next)
    (quiet : next.Quiet) (eofEventCnt : next.eofEventCnt = link.eofEventCnt)
    (rdInRing : next.rdIdx < maxReqSlots) (wrInRing : next.wrIdx < maxReqSlots)
    (lastInRing : ∀ last ∈ next.lastAppliedIdx, last < maxReqSlots) : next.Calm where
  framed := calm.framed.keep keeps
  quiet := quiet
  atSof := keeps.devs ▸ calm.atSof
  noEvents := eofEventCnt.trans calm.noEvents
  rdInRing := rdInRing
  wrInRing := wrInRing
  lastInRing := lastInRing

theorem Calm.setLastApplied (calm : link.Calm) {last : Option Nat}
    (inRing : ∀ idx ∈ last, idx < maxReqSlots) : (link.setLastApplied last).Calm :=
  calm.retable (keeps_setLastApplied link last).toKeepsShape calm.quiet rfl calm.rdInRing
    calm.wrInRing inRing

theorem Calm.forgetLastApplied (calm : link.Calm) (idx : Nat) :
    (link.forgetLastApplied idx).Calm := by
  apply calm.setLastApplied
  split
  · exact nofun
  · exact calm.lastInRing

theorem Calm.resetReqSlot (calm : link.Calm) (idx : Nat) : (link.resetReqSlot idx).Calm := by
  have keeps := keeps_resetReqSlot link idx
  have quiet : (link.resetReqSlot idx).Quiet := by
    intro pd other
    rw [tblSlot_resetReqSlot]
    split
    · rfl
    · exact calm.quiet pd other
  obtain ⟨slot, lTbl, isReset⟩ := link.resetReqSlot_eq idx
  rw [isReset] at keeps quiet ⊢
  exact calm.retable keeps.toKeepsShape quiet rfl calm.rdInRing calm.wrInRing calm.lastInRing

theorem findSlotFrom_lt {slot : Nat → Slot} {reqId : Int} {num idx found : Nat}
    (inRing : idx < maxReqSlots) (isFound : findSlotFrom slot reqId num idx = some found) :
    found < maxReqSlots := by
  induction num generalizing idx with
  | zero => cases isFound
  | succ num ih =>
    rw [findSlotFrom] at isFound
    split at isFound
    case isTrue =>
      cases isFound
      exact inRing
    case isFalse =>
      apply ih _ isFound
      unfold decIdx at *
      split <;> omega

theorem reqId_of_findSlotFrom {slot : Nat → Slot} {reqId : Int} {num idx found : Nat}
    (isFound : findSlotFrom slot reqId num idx = some found) : (slot found).reqId = reqId := by
  induction num generalizing idx with
  | zero => cases isFound
  | succ num ih =>
    rw [findSlotFrom] at isFound
    split at isFound
    case isTrue here =>
      cases isFound
      exact here
    case isFalse => exact ih isFound

theorem Calm.recycle (calm : link.Calm) (reqId : Int) : (link.recycle reqId).Calm := by
  unfold Link.recycle
  split
  · exact calm
  · exact (calm.forgetLastApplied _).resetReqSlot _

theorem Calm.moveToNextReqSlot (calm : link.Calm) : link.moveToNextReqSlot.1.Calm := by
  have cleared : (cleared link (incIdx link.rdIdx 1)).Calm := by
    unfold cleared
    split
    · exact (calm.forgetLastApplied _).resetReqSlot _
    · exact calm
  rw [moveToNextReqSlot_eq]
  split
  · split
    · exact cleared
    · split
      · exact cleared.retable ⟨rfl, rfl, rfl, rfl⟩ cleared.quiet rfl cleared.rdInRing
          cleared.wrInRing cleared.lastInRing
      · refine cleared.retable ⟨rfl, rfl, rfl, rfl⟩ cleared.quiet rfl (incIdx_lt _ _) ?_
          cleared.lastInRing
        show (if _ then _ else _) < maxReqSlots
        split
        · exact incIdx_lt _ _
        · exact cleared.wrInRing
  · exact cleared.retable ⟨rfl, rfl, rfl, rfl⟩ cleared.quiet rfl (incIdx_lt _ _) cleared.wrInRing
      cleared.lastInRing

theorem Calm.advance (calm : link.Calm) (trigger : Trigger) (reqId : Int) :
    (link.advance trigger reqId).1.Calm := by
  unfold Link.advance
  dsimp only
  set next := if trigger = .sof then link.recycle reqId else link with isNext
  have recycled : next.Calm := by
    rw [isNext]
    split
    · exact calm.recycle reqId
    · exact calm
  split
  · exact recycled
  · split
    · exact recycled.moveToNextReqSlot
    · exact recycled

theorem stays_checkLinkIsReady (link : Link) (idx : Nat) (validateOnly : Bool) :
    link.Stays (link.checkLinkIsReady idx validateOnly).1 := by
  have keeps := keeps_checkLinkIsReady link idx validateOnly
  cases validateOnly with
  | true =>
    rw [checkLinkIsReady_true] at keeps ⊢
    cases traversed : traverse link.slot true link.lTbl idx link.applyData with
    | none => exact .refl link
    | some result =>
      obtain ⟨found, left⟩ := result
      obtain ⟨rfl, rfl⟩ := traverse_validate traversed
      exact .refl link
  | false =>
    rw [checkLinkIsReady_search] at keeps ⊢
    cases traversed : traverse link.slot false link.lTbl idx fun _ => ⟨0, 0⟩ with
    | none => exact stays_applyData link _
    | some result =>
      obtain ⟨found, left⟩ := result
      rw [traversed] at keeps
      refine ⟨keeps, rfl, rfl, rfl, rfl, rfl, rfl, rfl, ?_⟩
      rw [traverse_left traversed]
      rw [map_map]
      exact map_congr_left fun tbl _ => rfl

theorem stays_prepareReq (link : Link) (trigger : Trigger) :
    link.Stays (link.prepareReq trigger).1 := by
  unfold prepareReq
  dsimp only
  split
  case isTrue => exact .refl link
  case isFalse =>
    split
    case isTrue => exact .refl link
    case isFalse =>
      split
      case isTrue => exact .refl link
      case isFalse =>
        split
        case isTrue => exact stays_injectDelay link trigger link.rdIdx
        case isFalse =>
          have checked := stays_checkLinkIsReady link link.rdIdx true
          rcases isNext : link.checkLinkIsReady link.rdIdx true with ⟨next, isReady⟩
          rw [isNext] at checked
          cases isReady with
          | false => exact checked.trans (stays_setStatus next next.rdIdx .reqPending)
          | true =>
            dsimp only
            have injected := checked.trans (stays_injectDelay next trigger next.rdIdx)
            split
            case isTrue => exact injected.trans (stays_setStatus _ _ _)
            case isFalse =>
              have found := injected.trans (stays_checkLinkIsReady _
                (next.setTables (injectDelay trigger next.lTbl next.rdIdx).1).rdIdx false)
              rcases isLast : (next.setTables
                  (injectDelay trigger next.lTbl next.rdIdx).1).checkLinkIsReady
                  (next.setTables (injectDelay trigger next.lTbl next.rdIdx).1).rdIdx false
                with ⟨last, isReady⟩
              rw [isLast] at found
              cases isReady with
              | false => exact found.trans (stays_setStatus last last.rdIdx .reqPending)
              | true => exact found.trans (stays_setStatus last last.rdIdx .reqReady)

section

variable (calm : link.Calm)

include calm

theorem Calm.sendReq (trigger : Trigger) (answers : Answers) :
    (link.sendReq trigger answers).1.Calm := by
  have keeps := keepsShape_sendReq link trigger answers
  obtain ⟨_, _, prevApplyData, openReqCnt, isSent⟩ :=
    sendReq_of_quiet calm.quiet calm.framed.distinct trigger answers
  rw [isSent] at keeps ⊢
  have fields := marked_eq link (link.served trigger answers)
  apply calm.retable keeps
  case quiet =>
    intro pd idx
    obtain ⟨map, isMap⟩ := tblSlot_marked link (link.served trigger answers) pd idx
    show ((link.marked (link.served trigger answers)).tblSlot pd idx).ops = _
    rw [isMap]
    exact calm.quiet pd idx
  case eofEventCnt =>
    rw [fields]
    rfl
  case rdInRing =>
    rw [fields]
    exact calm.rdInRing
  case wrInRing =>
    rw [fields]
    exact calm.wrInRing
  case lastInRing =>
    rw [fields]
    exact calm.lastInRing

theorem Calm.finishReq (rc : Int) : (link.finishReq rc).Calm := by
  rw [finishReq_eq]
  split
  · exact calm.stay (stays_setStatus link _ _)
  · obtain ⟨state, isRecovered⟩ := recovered_eq link
    have recovered : link.recovered.Calm := by
      rw [isRecovered]
      exact calm.retable ⟨rfl, rfl, rfl, rfl⟩ calm.quiet rfl calm.rdInRing calm.wrInRing
        calm.lastInRing
    split
    · have applied := recovered.stay (stays_setStatus _ link.recovered.rdIdx .reqApplied)
      apply Calm.resetReqSlot
      apply applied.setLastApplied
      intro idx isRead
      cases isRead
      exact recovered.rdInRing
    · exact recovered

theorem Calm.processReq (trigger : Trigger) (answers : Answers) :
    (link.processReq trigger answers).1.Calm := by
  have prepared := calm.stay (stays_prepareReq link trigger)
  unfold Link.processReq
  split
  · exact calm
  · rcases isNext : link.prepareReq trigger with ⟨next, reached⟩
    rw [isNext] at prepared
    cases reached with
    | false => exact prepared
    | true => exact (prepared.sendReq trigger answers).finishReq _

theorem Calm.processTrigger (trigger : Trigger) (reqId : Int)
    (answers : Answers) : (link.processTrigger trigger reqId answers).1.Calm := by
  have advanced := calm.advance trigger reqId
  unfold Link.processTrigger
  rcases isNext : link.advance trigger reqId with ⟨next, reached⟩
  rw [isNext] at advanced
  cases reached with
  | false => exact advanced
  | true => exact advanced.processReq trigger answers

theorem Calm.addReq {addReq : AddRequest} (noEof : addReq.triggerEof = false) :
    (link.addReq addReq).Calm := by
  have eofEvents : (if addReq.triggerEof then { link with eofEventCnt := link.eofEventCnt + 1 }
      else link) = link := by
    rw [noEof]
    rfl
  unfold Link.addReq
  split
  · exact calm
  · rw [eofEvents]
    dsimp only
    unfold processAddReq
    split
    case h_2 => exact calm
    case h_1 dev idx _ _ =>
      apply calm.retable (keeps_updateTblSlot _ _ _ _).toKeepsShape _ rfl calm.rdInRing
        calm.wrInRing calm.lastInRing
      intro pd other
      rw [tblSlot_updateTblSlot]
      split
      · unfold addToSlot
        simp [noEof, calm.quiet dev.pDelay idx]
      · exact calm.quiet pd other

theorem Calm.scheduleRequest (reqId : Int) (bubbleEnable : Bool) :
    (link.scheduleRequest reqId bubbleEnable).1.Calm := by
  unfold Link.scheduleRequest
  split
  · exact calm
  · exact calm.retable ⟨rfl, rfl, rfl, rfl⟩ calm.quiet rfl calm.rdInRing (incIdx_lt _ _)
      calm.lastInRing

theorem Calm.cancelReq (reqId : Int) : (link.cancelReq reqId).1.Calm := by
  have same : { link with lastFlushId := reqId }.Calm :=
    calm.retable ⟨rfl, rfl, rfl, rfl⟩ calm.quiet rfl calm.rdInRing calm.wrInRing calm.lastInRing
  unfold Link.cancelReq tryCancelReq
  split
  · exact same
  · split
    · exact calm.retable ⟨rfl, rfl, rfl, rfl⟩ calm.quiet rfl calm.rdInRing calm.wrInRing
        calm.lastInRing
    · exact same

theorem Calm.flushAll (reqId : Int) : (link.flushAll reqId).Calm := by
  have keeps : link.KeepsShape (link.flushAll reqId) :=
    ⟨rfl, rfl, rfl, map_shape fun _ => rfl⟩
  refine ⟨calm.framed.keep keeps, ?_, calm.atSof, rfl, Nat.succ_pos 47, Nat.succ_pos 47,
    calm.lastInRing⟩
  intro pd idx
  have flushed : (link.flushAll reqId).tblSlot pd idx = (link.tblSlot pd idx).flushed :=
    tblSlot_map (fun tbl => { tbl with slot := fun idx => (tbl.slot idx).flushed })
      (fun _ slot => slot.flushed) (fun _ => rfl) (fun _ _ => rfl) (fun _ => rfl) rfl pd idx
  rw [flushed]
  rfl

end

/-! ## Going back to a request -/

theorem keeps_clearApplyMaps (link : Link) (idx : Nat) : link.Keeps (link.clearApplyMaps idx) :=
  ⟨⟨rfl, rfl, rfl, map_shape fun _ => rfl⟩, rfl⟩

/-- A slot that is to be applied again. -/
def reapply (link : Link) (idx : Nat) : Link :=
  if (link.slot idx).status = .reqApplied then (link.setStatus idx .reqAdded).clearApplyMaps idx
  else link

theorem reapplySlots_succ (num idx : Nat) (link : Link) :
    reapplySlots (num + 1) idx link
      = reapplySlots num (incIdx idx 1) (link.reapply (incIdx idx 1)) := rfl

theorem slot_reapply (link : Link) (idx other : Nat) :
    (link.reapply idx).slot other =
      if (link.slot other).status = .reqApplied ∧ other = idx
      then { link.slot other with status := .reqAdded } else link.slot other := by
  unfold reapply
  by_cases isIdx : other = idx
  · subst isIdx
    by_cases isApplied : (link.slot other).status = .reqApplied
    · rw [if_pos isApplied, if_pos ⟨isApplied, rfl⟩]
      exact update_self _ _ _
    · simp [isApplied]
  · simp only [isIdx, and_false]
    split
    · exact update_of_ne isIdx _ _
    · rfl

theorem tblSlot_reapply (link : Link) (idx pd other : Nat) :
    (link.reapply idx).tblSlot pd other =
      if (link.slot other).status = .reqApplied ∧ other = idx
      then { link.tblSlot pd other with reqApplyMap := 0 } else link.tblSlot pd other := by
  unfold reapply
  by_cases isIdx : other = idx
  · subst isIdx
    by_cases isApplied : (link.slot other).status = .reqApplied
    · rw [if_pos isApplied, if_pos ⟨isApplied, rfl⟩, tblSlot_clearApplyMaps, if_pos rfl]
      rfl
    · simp [isApplied]
  · simp only [isIdx, and_false]
    split
    · rw [tblSlot_clearApplyMaps, if_neg isIdx]
      rfl
    · rfl

/-- What going back leaves as it is. -/
structure Again (link next : Link) : Prop extends link.Keeps next where
  rdIdx : next.rdIdx = link.rdIdx
  wrIdx : next.wrIdx = link.wrIdx
  lastAppliedIdx : next.lastAppliedIdx = link.lastAppliedIdx
  lastFlushId : next.lastFlushId = link.lastFlushId
  eofEventCnt : next.eofEventCnt = link.eofEventCnt
  skip : next.lTbl.map ReqTbl.skip = link.lTbl.map ReqTbl.skip

theorem again_reapply (link : Link) (idx : Nat) : link.Again (link.reapply idx) := by
  unfold reapply
  split
  · exact ⟨(keeps_setStatus link idx _).trans (keeps_clearApplyMaps _ idx), rfl, rfl, rfl, rfl, rfl,
      skip_clearApplyMaps _ idx⟩
  · exact ⟨.refl link, rfl, rfl, rfl, rfl, rfl, rfl⟩

theorem Again.trans {last : Link} (first : link.Again next) (second : next.Again last) :
    link.Again last where
  toKeeps := first.toKeeps.trans second.toKeeps
  rdIdx := second.rdIdx.trans first.rdIdx
  wrIdx := second.wrIdx.trans first.wrIdx
  lastAppliedIdx := second.lastAppliedIdx.trans first.lastAppliedIdx
  lastFlushId := second.lastFlushId.trans first.lastFlushId
  eofEventCnt := second.eofEventCnt.trans first.eofEventCnt
  skip := second.skip.trans first.skip

theorem again_reapplySlots (num idx : Nat) (link : Link) :
    link.Again (reapplySlots num idx link) := by
  induction num generalizing idx link with
  | zero => exact ⟨.refl link, rfl, rfl, rfl, rfl, rfl, rfl⟩
  | succ num ih => exact (again_reapply link (incIdx idx 1)).trans (ih _ _)

/-- The slot of a place after another one is to be applied again. -/
def Reapplied (link : Link) (start first num place : Nat) : Prop :=
  (link.slot (incIdx start place)).status = .reqApplied ∧ first < place ∧ place ≤ first + num

instance (link : Link) (start first num place : Nat) :
    Decidable (link.Reapplied start first num place) :=
  inferInstanceAs (Decidable (_ ∧ _ ∧ _))

/-- The slots after one, up to a number of them, are to be applied again if they have been. -/
theorem reapplySlots_spec (num start first : Nat) (few : num < maxReqSlots) (link : Link) :
    ∀ place, first ≤ place → place < first + maxReqSlots →
      (reapplySlots num (incIdx start first) link).slot (incIdx start place) =
          (if link.Reapplied start first num place
          then { link.slot (incIdx start place) with status := .reqAdded }
          else link.slot (incIdx start place))
        ∧ ∀ pd, (reapplySlots num (incIdx start first) link).tblSlot pd (incIdx start place) =
          if link.Reapplied start first num place
          then { link.tblSlot pd (incIdx start place) with reqApplyMap := 0 }
          else link.tblSlot pd (incIdx start place) := by
  induction num generalizing first link with
  | zero =>
    intro place _ _
    have none : ¬link.Reapplied start first 0 place := by
      rintro ⟨_, after, atMost⟩
      omega
    simp only [if_neg none]
    exact ⟨rfl, fun _ => rfl⟩
  | succ num ih =>
    intro place atLeast below
    rw [reapplySlots_succ, incIdx_incIdx]
    set again := link.reapply (incIdx start (first + 1)) with isAgain
    have later := ih (first + 1) (by omega) again
    have slot := slot_reapply link (incIdx start (first + 1))
    have tblSlot := tblSlot_reapply link (incIdx start (first + 1))
    rw [← isAgain] at slot tblSlot
    by_cases isFirst : place = first
    · subst isFirst
      have round : incIdx start place = incIdx start (place + maxReqSlots) := by
        exact (Nat.add_mod_right _ _).symm
      have apart : incIdx start place ≠ incIdx start (place + 1) := by
        rw [Ne, incIdx_eq_iff]
        unfold maxReqSlots
        omega
      have after := later (place + maxReqSlots) (by unfold maxReqSlots; omega) (by omega)
      have notAgain : ¬again.Reapplied start (place + 1) num (place + maxReqSlots) := by
        rintro ⟨_, _, atMost⟩
        omega
      have notNow : ¬link.Reapplied start place (num + 1) place := by
        rintro ⟨_, after, _⟩
        exact Nat.lt_irrefl _ after
      simp only [if_neg notAgain, ← round, slot, tblSlot, apart, and_false] at after
      simp only [if_neg notNow]
      exact after
    · have after := later place (by omega) (by omega)
      have isNext : incIdx start place = incIdx start (first + 1) ↔ place = first + 1 := by
        rw [incIdx_eq_iff]
        unfold maxReqSlots at *
        omega
      unfold Reapplied at after ⊢
      simp only [slot, tblSlot, isNext] at after
      by_cases here : place = first + 1
      · subst here
        simp only [and_true, Nat.lt_irrefl, false_and, and_false] at after
        have inRange : first < first + 1 ∧ first + 1 ≤ first + (num + 1) := by omega
        simp only [inRange, and_true]
        exact after
      · simp only [here, and_false] at after
        have same : first + 1 < place ∧ place ≤ first + 1 + num
            ↔ first < place ∧ place ≤ first + (num + 1) := by omega
        simp only [same] at after
        exact after

/-- How many slots after a request are to be applied again after a bubble. -/
def slotDiff (link : Link) (idx : Nat) : Nat :=
  match link.lastAppliedIdx with
  | some last => if last < idx then last + maxReqSlots - idx else last - idx
  | none => 1

/-- The link has gone back to a slot. -/
def backAt (link : Link) (idx : Nat) : Link :=
  (({ link with lTbl := tblSetAllSkipCnt link.lTbl, rdIdx := idx }).setStatus idx
    .reqAdded).clearApplyMaps idx

theorem rewind_eq (link : Link) (reqId : Int) :
    link.rewind reqId =
      match link.findSlotForReq reqId with
      | none => (link, false)
      | some idx =>
        if !(link.slot idx).recover then (link, false)
        else if (link.slot idx).status ≠ .reqPending ∧ (link.slot idx).status ≠ .reqApplied then
          (link, false)
        else
          ({ reapplySlots (link.slotDiff idx) idx (link.backAt idx) with
              state := .err, openReqCnt := link.openReqCnt + 1 }, true) := rfl

theorem Calm.backAt (calm : link.Calm) (inRing : idx < maxReqSlots) : (link.backAt idx).Calm := by
  have keeps : link.KeepsShape (link.backAt idx) := by
    refine ⟨rfl, rfl, rfl, ?_⟩
    exact (keeps_clearApplyMaps _ idx).shape.trans (tblSetAllSkipCnt_shape link.lTbl)
  apply calm.retable keeps _ rfl inRing calm.wrInRing calm.lastInRing
  intro pd other
  have bare : ({ link with lTbl := tblSetAllSkipCnt link.lTbl, rdIdx := idx } : Link).lTbl.map
      ReqTbl.bare = link.lTbl.map ReqTbl.bare := bare_tblSetAllSkipCnt link.lTbl
  have quiet := calm.quiet.congr bare pd other
  show (((_ : Link).clearApplyMaps idx).tblSlot pd other).ops = _
  rw [tblSlot_clearApplyMaps]
  split
  · exact quiet
  · exact quiet

theorem Calm.again (calm : link.Calm) (again : link.Again next) (quiet : next.Quiet) : next.Calm :=
  calm.retable again.toKeepsShape quiet again.eofEventCnt (again.rdIdx ▸ calm.rdInRing)
    (again.wrIdx ▸ calm.wrInRing) (again.lastAppliedIdx ▸ calm.lastInRing)

theorem quiet_reapplySlots (num idx : Nat) (quiet : link.Quiet) :
    (reapplySlots num idx link).Quiet := by
  induction num generalizing idx link with
  | zero => exact quiet
  | succ num ih =>
    rw [reapplySlots_succ]
    apply ih
    intro pd other
    rw [tblSlot_reapply]
    split
    · exact quiet pd other
    · exact quiet pd other

theorem Calm.rewind (calm : link.Calm) (reqId : Int) : (link.rewind reqId).1.Calm := by
  rw [rewind_eq]
  cases found : link.findSlotForReq reqId with
  | none => exact calm
  | some idx =>
    dsimp only
    split
    · exact calm
    · split
      · exact calm
      · have back := calm.backAt (findSlotFrom_lt calm.rdInRing found)
        have again := again_reapplySlots (link.slotDiff idx) idx (link.backAt idx)
        have quiet := quiet_reapplySlots (link.slotDiff idx) idx back.quiet
        have calmAgain := back.again again quiet
        exact calmAgain.retable ⟨rfl, rfl, rfl, rfl⟩ calmAgain.quiet rfl calmAgain.rdInRing
          calmAgain.wrInRing calmAgain.lastInRing

theorem Calm.processError (calm : link.Calm) (reqId : Int) (trigger : Trigger)
    (answers : Answers) : (link.processError reqId trigger answers).1.Calm := by
  have back := calm.rewind reqId
  unfold Link.processError
  rcases isNext : link.rewind reqId with ⟨next, reached⟩
  rw [isNext] at back
  cases reached with
  | false => exact back
  | true => exact back.processReq trigger answers

/-! ## Reachable links -/

/-- An operation on a link, or the report of a bubble. -/
inductive Operation
  | call (operation : LinkOperation)
  | processError (reqId : Int) (trigger : Trigger) (answers : Answers)

/-- One operation on a link. -/
def operate (link : Link) : Operation → Link
  | .call (.scheduleRequest reqId bubbleEnable) => (link.scheduleRequest reqId bubbleEnable).1
  | .call (.addReq addReq) => link.addReq addReq
  | .call (.trigger trigger reqId answers) => (link.processTrigger trigger reqId answers).1
  | .call (.cancelReq reqId) => (link.cancelReq reqId).1
  | .call (.flushAll reqId) => link.flushAll reqId
  | .processError reqId trigger answers => (link.processError reqId trigger answers).1

/-- No operation at the end of a frame is asked for. -/
def NoEof (_ : Link) : Operation → Prop
  | .call (.addReq addReq) => addReq.triggerEof = false
  | _ => True

instance (link : Link) (operation : Operation) : Decidable (link.NoEof operation) :=
  match operation with
  | .call (.addReq _) => inferInstanceAs (Decidable (_ = _))
  | .call (.scheduleRequest _ _) | .call (.trigger _ _ _) | .call (.cancelReq _)
  | .call (.flushAll _) | .processError _ _ _ => inferInstanceAs (Decidable True)

theorem Calm.operate (calm : link.Calm) {operation : Operation} (noEof : link.NoEof operation) :
    (link.operate operation).Calm := by
  rcases operation with ⟨_ | _ | _ | _ | _⟩ | _
  · exact calm.scheduleRequest _ _
  · exact calm.addReq noEof
  · exact calm.processTrigger _ _ _
  · exact calm.cancelReq _
  · exact calm.flushAll _
  · exact calm.processError _ _ _

variable (infos : List DeviceInfo)

/-- What connecting devices leaves of a link. -/
theorem foldl_connect_eq (link : Link) :
    ∃ devs lTbl maxDelay minDelay, infos.foldl connect link =
      { link with devs := devs, lTbl := lTbl, maxDelay := maxDelay, minDelay := minDelay } := by
  induction infos generalizing link with
  | nil => exact ⟨_, _, _, _, rfl⟩
  | cons info rest ih =>
    obtain ⟨devs, lTbl, maxDelay, minDelay, isLink⟩ := ih (link.connect info)
    exact ⟨devs, lTbl, maxDelay, minDelay, isLink⟩

/-- No slot of a table has been used. -/
def Unused (link : Link) : Prop := ∀ tbl ∈ link.lTbl, tbl.slot = fun _ => .unused

theorem unused_tablesFor (link : Link) (pd : Nat) (unused : link.Unused) :
    ∀ tbl ∈ link.tablesFor pd, tbl.slot = fun _ => .unused := by
  exact forall_tablesFor (fun _ => Iff.rfl) unused fun _ => rfl

theorem Unused.connect (unused : link.Unused) (info : DeviceInfo) : (link.connect info).Unused := by
  intro tbl among
  obtain ⟨old, oldAmong, rfl⟩ := mem_map.mp among
  have isOld := unused_tablesFor link info.pDelay unused old oldAmong
  split
  · exact isOld
  · exact isOld

theorem unused_foldl (unused : link.Unused) : (infos.foldl connect link).Unused := by
  induction infos generalizing link with
  | nil => exact unused
  | cons info rest ih => exact ih (unused.connect info)

theorem tblSlot_setup (pd idx : Nat) : (setup infos).tblSlot pd idx = .unused := by
  have unused : reserved.Unused := fun _ among => absurd among not_mem_nil
  have all := unused_foldl infos unused
  unfold tblSlot setup
  cases found : (tblSetAllSkipCnt (infos.foldl connect reserved).lTbl).find? fun tbl =>
      tbl.pd = pd with
  | none => rfl
  | some tbl =>
    have among := mem_of_find?_eq_some found
    cases tables : (infos.foldl connect reserved).lTbl with
    | nil =>
      rw [tables] at among
      exact absurd among not_mem_nil
    | cons first rest =>
      rw [tables] at among
      obtain ⟨old, oldAmong, rfl⟩ := mem_map.mp among
      rw [← tables] at oldAmong
      exact congrFun (all old oldAmong) idx

/-- The devices of a link are those that have been connected. -/
theorem devs_foldl (link : Link) :
    ∀ dev ∈ (infos.foldl connect link).devs, dev ∈ link.devs ∨ dev.toDeviceInfo ∈ infos := by
  induction infos generalizing link with
  | nil => exact fun dev among => .inl among
  | cons info rest ih =>
    intro dev among
    rcases ih (link.connect info) dev among with before | later
    · rcases mem_append.mp before with isOld | isNew
      · exact .inl isOld
      · rw [mem_singleton.mp isNew]
        exact .inr mem_cons_self
    · exact .inr (mem_cons_of_mem _ later)

theorem setup_eq : ∃ devs lTbl maxDelay minDelay, setup infos = { reserved with
    devs := devs, lTbl := lTbl, maxDelay := maxDelay, minDelay := minDelay } := by
  obtain ⟨devs, lTbl, maxDelay, minDelay, isLink⟩ := foldl_connect_eq infos reserved
  unfold setup
  rw [isLink]
  exact ⟨_, _, _, _, rfl⟩

theorem calm_setup {infos : List DeviceInfo} (atSof : ∀ info ∈ infos, info.atSof) :
    (setup infos).Calm := by
  have framed := framed_setup infos
  have devices : ∀ dev ∈ (setup infos).devs, dev.atSof := by
    intro dev among
    rcases devs_foldl infos reserved dev among with isOld | isInfo
    · exact absurd isOld not_mem_nil
    · exact atSof dev.toDeviceInfo isInfo
  have quiet : (setup infos).Quiet := fun pd idx => congrArg TblSlot.ops (tblSlot_setup infos pd idx)
  obtain ⟨devs, lTbl, maxDelay, minDelay, isSetup⟩ := setup_eq infos
  rw [isSetup] at framed quiet devices ⊢
  refine ⟨framed, quiet, devices, rfl, Nat.succ_pos 47, Nat.succ_pos 47, ?_⟩
  intro last isLast
  cases isLast
  exact Nat.succ_pos 47

/-! ## The bubble -/

/-- The requests from a slot on that are to be given after a bubble, by place. -/
def outstanding (link : Link) (idx place : Nat) : Option Int :=
  if maxReqSlots ≤ place then none
  else if place = 0 then (link.slot idx).request
  else if (link.slot (incIdx idx place)).status = .reqApplied then
    if place ≤ link.slotDiff idx then (link.slot (incIdx idx place)).request else none
  else (link.slot (incIdx idx place)).awaited

/-- A bubble is reported on a request for which recovery is enabled, and the requests from there
up to the last applied one are still in their slots and have been added by all devices. -/
structure Recoverable (link : Link) (reqId : Int) (idx : Nat) : Prop where
  found : link.findSlotForReq reqId = some idx
  recover : (link.slot idx).recover = true
  status : (link.slot idx).status = .reqPending ∨ (link.slot idx).status = .reqApplied
  lastApplied : link.lastAppliedIdx ≠ none
  added : ∀ place ≤ link.slotDiff idx, 0 ≤ (link.slot (incIdx idx place)).reqId
    ∧ ∀ tbl ∈ link.lTbl, (tbl.slot (incIdx idx place)).state = .ready

/-- What the devices have been sent before the bubble is forgotten where it matters, and the
devices take the request again. -/
structure SparesOnBubble (link : Link) (idx : Nat) (trigger : Trigger) (answers : Answers) :
    Prop where
  notReady : ∀ place < maxReqSlots, (link.slot (incIdx idx place)).status ≠ .reqReady
  clear : ∀ place < maxReqSlots, 0 < place →
    (link.slot (incIdx idx place)).awaited ≠ none →
    ∀ dev ∈ link.devs, maps link (incIdx idx place) dev.pDelay = 0
  late : ∀ place < maxReqSlots, maxReqSlots ≤ place + link.maxDelay + 1 →
    (link.slot (incIdx idx place)).status = .reqPending →
    (link.slot (incIdx idx place)).request = none
  accepts : trigger = .sof → ∀ dev ∈ link.devs, 0 ≤ answers dev

/-- The link after the report of a bubble. -/
def afterBubble (link : Link) (reqId : Int) (idx : Nat) (trigger : Trigger) (answers : Answers) :
    Pipeline :=
  record ⟨link, idx, 0, link.outstanding idx, []⟩ (link.processError reqId trigger answers)

/-- The slots of the link that has gone back. -/
theorem backAt_spec (link : Link) (inRing : idx < maxReqSlots) (place : Nat)
    (below : place < maxReqSlots) :
    (link.backAt idx).slot (incIdx idx place) =
        (if place = 0 then { link.slot idx with status := .reqAdded }
        else link.slot (incIdx idx place))
      ∧ ∀ pd, maps (link.backAt idx) (incIdx idx place) pd =
        if place = 0 then 0 else maps link (incIdx idx place) pd := by
  have isFirst : incIdx idx place = idx ↔ place = 0 := by
    unfold incIdx maxReqSlots at *
    omega
  have bare : ({ link with lTbl := tblSetAllSkipCnt link.lTbl, rdIdx := idx } : Link).lTbl.map
      ReqTbl.bare = link.lTbl.map ReqTbl.bare := bare_tblSetAllSkipCnt link.lTbl
  constructor
  · show update link.slot idx { link.slot idx with status := .reqAdded } _ = _
    rw [update_apply]
    simp only [isFirst]
  · intro pd
    have same := congrFun (maps_congr bare (incIdx idx place)) pd
    unfold maps at same ⊢
    unfold backAt
    rw [tblSlot_clearApplyMaps]
    simp only [isFirst]
    split
    · rfl
    · exact same

/-- The slots of the link when all is to be applied again. -/
theorem rewound_spec (link : Link) (inRing : idx < maxReqSlots) {num : Nat}
    (few : num < maxReqSlots) (place : Nat) (below : place < maxReqSlots) :
    (reapplySlots num idx (link.backAt idx)).slot (incIdx idx place) =
        (if place = 0 then { link.slot idx with status := .reqAdded }
        else if (link.slot (incIdx idx place)).status = .reqApplied ∧ place ≤ num
        then { link.slot (incIdx idx place) with status := .reqAdded }
        else link.slot (incIdx idx place))
      ∧ ∀ pd, maps (reapplySlots num idx (link.backAt idx)) (incIdx idx place) pd =
        if place = 0 ∨ (link.slot (incIdx idx place)).status = .reqApplied ∧ place ≤ num then 0
        else maps link (incIdx idx place) pd := by
  have back := backAt_spec link inRing place below
  have again := reapplySlots_spec num idx 0 few (link.backAt idx) place (Nat.zero_le _)
    (by rw [Nat.zero_add]; exact below)
  have isAgain : (link.backAt idx).Reapplied idx 0 num place
      ↔ ((link.backAt idx).slot (incIdx idx place)).status = .reqApplied
        ∧ 0 < place ∧ place ≤ num := by
    unfold Reapplied
    rw [Nat.zero_add]
  rw [incIdx_zero inRing] at again
  simp only [isAgain] at again
  by_cases isFirst : place = 0
  · have notAgain : ¬(((link.backAt idx).slot (incIdx idx place)).status = .reqApplied
        ∧ 0 < place ∧ place ≤ num) := by
      omega
    simp only [if_neg notAgain] at again
    rw [if_pos isFirst, again.1, back.1, if_pos isFirst]
    refine ⟨rfl, ?_⟩
    intro pd
    rw [if_pos (.inl isFirst)]
    have isClear := back.2 pd
    rw [if_pos isFirst] at isClear
    unfold maps at isClear ⊢
    rw [again.2 pd]
    exact isClear
  · have positive : 0 < place := Nat.pos_of_ne_zero isFirst
    rw [if_neg isFirst] at back
    simp only [back.1, positive, true_and] at again
    rw [if_neg isFirst, again.1]
    refine ⟨rfl, ?_⟩
    intro pd
    have same := back.2 pd
    rw [if_neg isFirst] at same
    simp only [isFirst, false_or]
    unfold maps at same ⊢
    rw [again.2 pd]
    split
    · rfl
    · exact same

end Link

namespace Pipeline

open Link

variable {link : Link}

theorem slotDiff_lt (calm : link.Calm) (inRing : idx < maxReqSlots) :
    link.slotDiff idx < maxReqSlots := by
  have last := calm.lastInRing
  unfold slotDiff
  split
  case h_1 applied isLast =>
    have appliedInRing := last applied isLast
    split <;> omega
  case h_2 => exact Nat.succ_lt_succ (Nat.succ_pos 46)

/-- The link as it is when it has gone back. -/
def rewound (link : Link) (idx : Nat) : Pipeline :=
  ⟨{ reapplySlots (link.slotDiff idx) idx (link.backAt idx) with
      state := .err, openReqCnt := link.openReqCnt + 1 }, idx, 0, link.outstanding idx, []⟩

/-- After the link has gone back it is aligned with the requests from the bubble on. -/
theorem aligned_rewound (calm : link.Calm)
    (inRing : idx < maxReqSlots) {trigger : Trigger} {answers : Answers}
    (spares : link.SparesOnBubble idx trigger answers) : (rewound link idx).Aligned := by
  have back := calm.backAt inRing
  have again := again_reapplySlots (link.slotDiff idx) idx (link.backAt idx)
  have rewoundCalm := back.again again (quiet_reapplySlots (link.slotDiff idx) idx back.quiet)
  have spec := rewound_spec link inRing (slotDiff_lt calm inRing)
  have sameDevs : (rewound link idx).link.devs = link.devs := again.devs
  have sameMax : (rewound link idx).link.maxDelay = link.maxDelay := again.maxDelay
  have skip : (rewound link idx).link.lTbl.map ReqTbl.skip
      = (tblSetAllSkipCnt link.lTbl).map ReqTbl.skip := by
    refine again.skip.trans ?_
    unfold backAt
    rw [skip_clearApplyMaps]
    rfl
  constructor
  case framed => exact rewoundCalm.framed.keep ⟨rfl, rfl, rfl, rfl⟩
  case quiet => exact rewoundCalm.quiet
  case atSof =>
    rw [sameDevs]
    exact calm.atSof
  case wrInRing => exact rewoundCalm.wrInRing
  case skips =>
    intro tbl among
    have isSkip : tbl.skip ∈ (tblSetAllSkipCnt link.lTbl).map ReqTbl.skip := by
      rw [← skip]
      exact mem_map_of_mem among
    obtain ⟨before, isBefore, same⟩ := mem_map.mp isSkip
    have isPd : before.pd = tbl.pd := congrArg Prod.fst same
    have isCount : before.skipTraverse = tbl.skipTraverse := congrArg Prod.snd same
    rw [sameMax, ← isCount, ← isPd]
    exact skip_tblSetAllSkipCnt calm.framed.first before isBefore
  case fits =>
    intro place near
    have below : place < maxReqSlots := by
      unfold Near at near
      have none : (rewound link idx).sends = 0 := rfl
      omega
    obtain ⟨slot, map⟩ := spec place below
    have isOutstanding : (rewound link idx).requests place = link.outstanding idx place := rfl
    have notReady := spares.notReady place below
    show Fits _ place ((reapplySlots (link.slotDiff idx) idx (link.backAt idx)).slot
      (incIdx idx place)) (maps _ (incIdx idx place))
    rw [slot]
    constructor
    case served => exact fun isBefore => absurd isBefore (Nat.not_lt_zero _)
    case behind => exact fun isBefore => absurd isBefore (Nat.not_lt_zero _)
    case ahead =>
      intro _
      rw [isOutstanding]
      unfold outstanding
      rw [if_neg (Nat.not_le.mpr below)]
      by_cases isFirst : place = 0
      · rw [if_pos isFirst, if_pos isFirst]
        exact ⟨rfl, nofun⟩
      · rw [if_neg isFirst, if_neg isFirst]
        by_cases isApplied : (link.slot (incIdx idx place)).status = .reqApplied
        · by_cases isAgain : place ≤ link.slotDiff idx
          · rw [if_pos ⟨isApplied, isAgain⟩, if_pos isApplied, if_pos isAgain]
            exact ⟨rfl, nofun⟩
          · rw [if_neg fun both => isAgain both.2, if_pos isApplied, if_neg isAgain]
            refine ⟨?_, notReady⟩
            unfold Slot.awaited
            rw [isApplied]
        · rw [if_neg fun both => isApplied both.1, if_neg isApplied]
          exact ⟨rfl, notReady⟩
    case clear =>
      intro isRequest dev among _
      rw [sameDevs] at among
      rw [isOutstanding] at isRequest
      refine (map dev.pDelay).trans ?_
      split
      case isTrue => rfl
      case isFalse stays =>
        rw [not_or] at stays
        unfold outstanding at isRequest
        rw [if_neg (Nat.not_le.mpr below), if_neg stays.1] at isRequest
        apply spares.clear place below (Nat.pos_of_ne_zero stays.1) _ dev among
        by_cases isApplied : (link.slot (incIdx idx place)).status = .reqApplied
        · have notAgain : ¬place ≤ link.slotDiff idx := fun isAgain => stays.2 ⟨isApplied, isAgain⟩
          rw [if_pos isApplied, if_neg notAgain] at isRequest
          exact absurd rfl isRequest
        · rw [if_neg isApplied] at isRequest
          exact isRequest
    case late =>
      intro isLate isPending
      have isRound : maxReqSlots ≤ place + link.maxDelay + 1 := by omega
      by_cases isFirst : place = 0
      · rw [if_pos isFirst] at isPending
        exact nomatch isPending
      · rw [if_neg isFirst] at isPending
        split at isPending
        case isTrue => exact nomatch isPending
        case isFalse =>
          have noRequest := spares.late place below isRound isPending
          rw [isOutstanding]
          unfold outstanding
          rw [if_neg (Nat.not_le.mpr below), if_neg isFirst, isPending,
            if_neg (by decide), Slot.awaited_of_status, noRequest]
          · rw [isPending]
            exact nofun
          · rw [isPending]
            exact nofun
  case beyond =>
    intro place far _
    have isRound : maxReqSlots ≤ place := by
      by_contra below
      apply far
      exact ⟨Nat.zero_le _, .inl (Nat.not_le.mp below)⟩
    show link.outstanding idx place = none
    unfold outstanding
    rw [if_pos isRound]
  case received =>
    intro dev _
    have noSends : (rewound link idx).sends - ((rewound link idx).link.maxDelay - dev.pDelay) = 0 :=
      Nat.zero_sub _
    unfold servedUpTo
    rw [noSends]
    rfl

theorem reading_rewound (calm : link.Calm) (inRing : idx < maxReqSlots) :
    (rewound link idx).Reading := by
  have again := again_reapplySlots (link.slotDiff idx) idx (link.backAt idx)
  have isRead : (rewound link idx).link.rdIdx = idx := again.rdIdx
  have spec := (rewound_spec link inRing (slotDiff_lt calm inRing) 0 (Nat.succ_pos 47)).1
  rw [incIdx_zero inRing] at spec
  refine ⟨isRead.trans (incIdx_zero inRing).symm, ?_⟩
  rw [isRead]
  show ((reapplySlots (link.slotDiff idx) idx (link.backAt idx)).slot idx).status ≠ .reqApplied
  rw [spec]
  exact nofun

/-- After the report of a bubble the link is aligned with the requests from there on. -/
theorem aligned_afterBubble (calm : link.Calm) {reqId : Int} {trigger : Trigger} {answers : Answers}
    (recoverable : link.Recoverable reqId idx) (spares : link.SparesOnBubble idx trigger answers) :
    (link.afterBubble reqId idx trigger answers).Aligned
      ∧ ((link.afterBubble reqId idx trigger answers).Reading
        ∨ (link.afterBubble reqId idx trigger answers).Done) := by
  have inRing := findSlotFrom_lt calm.rdInRing recoverable.found
  have aligned := aligned_rewound calm inRing spares
  have reading := reading_rewound calm inRing
  have isError : link.processError reqId trigger answers
      = (rewound link idx).link.processReq trigger answers := by
    unfold Link.processError
    rw [rewind_eq, recoverable.found]
    dsimp only
    rw [recoverable.recover, if_neg (by decide), if_neg]
    · rfl
    · rintro ⟨notPending, notApplied⟩
      exact recoverable.status.elim notPending notApplied
  have isRecord : link.afterBubble reqId idx trigger answers
      = (rewound link idx).record ((rewound link idx).link.processReq trigger answers) := by
    unfold afterBubble
    rw [isError]
    rfl
  rw [isRecord]
  cases trigger with
  | eof =>
    have noEvents : (rewound link idx).link.eofEventCnt = 0 :=
      (again_reapplySlots (link.slotDiff idx) idx (link.backAt idx)).eofEventCnt.trans calm.noEvents
    have nothing : (rewound link idx).link.processReq .eof answers
        = ((rewound link idx).link, [], none) := by
      unfold processReq
      rw [prepareReq_eof noEvents]
      split
      · rfl
      · rfl
    rw [nothing]
    exact ⟨aligned, .inl reading⟩
  | sof =>
    apply aligned.processReq (.inl reading)
    have sameDevs : (rewound link idx).link.devs = link.devs :=
      (again_reapplySlots (link.slotDiff idx) idx (link.backAt idx)).devs
    apply aligned.smooth reading
    · rw [sameDevs]
      exact spares.accepts rfl
    · intro dev among reached
      have noDistance : (rewound link idx).link.maxDelay - dev.pDelay = 0 :=
        Nat.le_zero.mp reached
      have isRead : (rewound link idx).link.readAt dev.pDelay = idx := by
        rw [readAt_eq_of_le aligned.framed reading reached, noDistance]
        exact incIdx_zero inRing
      have spec := (rewound_spec link inRing (slotDiff_lt calm inRing) 0 (Nat.succ_pos 47)).1
      rw [incIdx_zero inRing] at spec
      have valid := (recoverable.added 0 (Nat.zero_le _)).1
      rw [incIdx_zero inRing] at valid
      rw [isRead]
      show -1 ≤ ((reapplySlots (link.slotDiff idx) idx (link.backAt idx)).slot idx).reqId
      rw [spec]
      exact Int.le_trans (by decide) valid

/-! ## The recovery -/

/-- The triggers after the bubble succeed, or send nothing, and no operation at the end of a frame
is asked for. -/
def Proper (pipe : Pipeline) : PipelineOperation → Prop
  | .scheduleRequest _ _ => True
  | .addReq addReq => addReq.triggerEof = false
  | .trigger reqId answers => Smooth (pipe.link.processTrigger .sof reqId answers)

instance (pipe : Pipeline) (operation : PipelineOperation) : Decidable (pipe.Proper operation) :=
  match operation with
  | .scheduleRequest _ _ => inferInstanceAs (Decidable True)
  | .addReq _ => inferInstanceAs (Decidable (_ = _))
  | .trigger _ _ => inferInstanceAs (Decidable (Smooth _))

/-- No slot is given up or overwritten that is needed for the recovery. -/
def SparesOn (pipe : Pipeline) : PipelineOperation → Prop
  | .scheduleRequest reqId _ => pipe.SparesOnSchedule reqId
  | .addReq _ => True
  | .trigger reqId _ => pipe.SparesOnTrigger reqId

instance (pipe : Pipeline) (operation : PipelineOperation) : Decidable (pipe.SparesOn operation) :=
  match operation with
  | .scheduleRequest _ _ => inferInstanceAs (Decidable (SparesOnSchedule _ _))
  | .addReq _ => inferInstanceAs (Decidable True)
  | .trigger _ _ => inferInstanceAs (Decidable (SparesOnTrigger _ _))

/-- The devices of each pipeline delay have been given the requests from the one with the bubble
on in the order of the slots, each once, as far as the sends have come at their delay. -/
structure Recovered (pipe : Pipeline) (reqId : Int) (requests : Nat → Option Int) : Prop where
  first : pipe.requests 0 = some reqId
  kept : ∀ place, requests place ≠ none → pipe.requests place = requests place
  received : ∀ dev ∈ pipe.link.devs, pipe.received dev = pipe.servedUpTo dev.pDelay

/-- The steps of the recovery keep the link aligned, and the requests at their places. -/
theorem Aligned.step {pipe : Pipeline} (aligned : pipe.Aligned) (place : pipe.Reading ∨ pipe.Done)
    {operation : PipelineOperation} (proper : pipe.Proper operation)
    (spares : pipe.SparesOn operation) :
    (pipe.step operation).Aligned ∧ ((pipe.step operation).Reading ∨ (pipe.step operation).Done)
      ∧ ∀ place, pipe.requests place ≠ none →
        (pipe.step operation).requests place = pipe.requests place := by
  cases operation with
  | addReq addReq =>
    obtain ⟨after, next⟩ := aligned.addReq place proper
    exact ⟨after, next, fun _ _ => rfl⟩
  | trigger reqId answers =>
    obtain ⟨after, next⟩ := aligned.trigger place spares proper
    exact ⟨after, next, fun _ _ => rfl⟩
  | scheduleRequest reqId bubbleEnable =>
    obtain ⟨after, next⟩ := aligned.scheduleRequest place bubbleEnable spares
    refine ⟨after, next, ?_⟩
    intro other isRequest
    unfold Pipeline.step Link.scheduleRequest
    dsimp only
    by_cases isOld : reqId ≤ pipe.link.lastFlushId
    · rw [if_pos isOld]
    · rw [if_neg isOld]
      have isFree := (spares (Int.not_le.mp isOld)).2.1
      apply update_of_ne
      rintro rfl
      exact isRequest isFree

/-- A link that has just been set up. -/
def fresh (infos : List DeviceInfo) : Pipeline := ⟨setup infos, 0, 0, fun _ => none, []⟩

theorem slot_setup (infos : List DeviceInfo) (idx : Nat) : (setup infos).slot idx = .unused := by
  obtain ⟨_, _, _, _, isSetup⟩ := setup_eq infos
  rw [isSetup]
  rfl

theorem reading_fresh (infos : List DeviceInfo) : (fresh infos).Reading := by
  obtain ⟨_, _, _, _, isSetup⟩ := setup_eq infos
  unfold Reading fresh
  rw [isSetup]
  exact ⟨rfl, nofun⟩

theorem aligned_fresh {infos : List DeviceInfo} (atSof : ∀ info ∈ infos, info.atSof) :
    (fresh infos).Aligned := by
  have calm := calm_setup atSof
  have connected := connected_foldl connected_reserved infos
  have masked : reserved.Masked := fun _ among => absurd among not_mem_nil
  constructor
  case framed => exact calm.framed
  case quiet => exact calm.quiet
  case atSof => exact calm.atSof
  case wrInRing => exact calm.wrInRing
  case skips =>
    exact skip_tblSetAllSkipCnt (connected.framed (masked_foldl connected_reserved masked infos)).first
  case fits =>
    intro place _
    have isUnused : maps (setup infos) (slotOf (fresh infos) place) = fun _ => 0 :=
      funext fun pd => congrArg TblSlot.reqApplyMap (tblSlot_setup infos pd _)
    show Fits _ _ ((setup infos).slot _) (maps (setup infos) _)
    rw [slot_setup, isUnused]
    exact fits_unused fun owed => owed.1 rfl
  case beyond => exact fun _ _ _ => rfl
  case received => exact fun _ _ => (filterMap_none _).symm

/-- Every device has been given the requests in the order of their slots, as far as the sends
have come at its delay, and so the first ones of what a device further ahead has been given. -/
def InOrder (pipe : Pipeline) : Prop :=
  ∀ dev ∈ pipe.link.devs, pipe.received dev = pipe.servedUpTo dev.pDelay
    ∧ ∀ ahead ∈ pipe.link.devs, dev.pDelay ≤ ahead.pDelay →
      pipe.received dev <+: pipe.received ahead

/-- From the setup of the link on, the devices are given the requests in order, as long as no
step takes away a slot that is needed. -/
theorem inOrder_of_spares {infos : List DeviceInfo} {final : Pipeline}
    (atSof : ∀ info ∈ infos, info.atSof)
    (run : Reaches (guarded (fun pipe operation => pipe.Proper operation ∧ pipe.SparesOn operation)
      step) (fresh infos) final) : final.InOrder := by
  have holds : final.Aligned ∧ (final.Reading ∨ final.Done) := by
    apply run.invariant ⟨aligned_fresh atSof, .inl (reading_fresh infos)⟩
    rintro pipe operation next ⟨aligned, place⟩ ⟨⟨proper, sparesOn⟩, rfl⟩
    obtain ⟨after, nextPlace, -⟩ := aligned.step place proper sparesOn
    exact ⟨after, nextPlace⟩
  intro dev among
  refine ⟨holds.1.received dev among, fun ahead aheadAmong behind => ?_⟩
  rw [holds.1.received dev among, holds.1.received ahead aheadAmong]
  have fewer : final.sends - (final.link.maxDelay - dev.pDelay)
      ≤ final.sends - (final.link.maxDelay - ahead.pDelay) := by omega
  have first := take_prefix (final.sends - (final.link.maxDelay - dev.pDelay))
    (range (final.sends - (final.link.maxDelay - ahead.pDelay)))
  rw [take_range, Nat.min_eq_left fewer] at first
  exact first.filterMap final.requests

/-- After a bubble that leaves nothing of what was sent before it, the devices are given the
requests from there on in order, as long as no step takes away a slot that is needed. -/
theorem recovered_of_spares {infos : List DeviceInfo} {reqId : Int}
    {trigger : Trigger} {answers : Answers} {final : Pipeline}
    (atSof : ∀ info ∈ infos, info.atSof)
    (reached : Reaches (guarded NoEof operate) (setup infos) link)
    (recoverable : link.Recoverable reqId idx)
    (spares : link.SparesOnBubble idx trigger answers)
    (run : Reaches (guarded (fun pipe operation => pipe.Proper operation ∧ pipe.SparesOn operation)
      step) (link.afterBubble reqId idx trigger answers) final) :
    final.Recovered reqId (link.outstanding idx) := by
  have calm : link.Calm := by
    apply reached.invariant (calm_setup atSof)
    rintro source operation target calm ⟨noEof, rfl⟩
    exact calm.operate noEof
  obtain ⟨aligned, place⟩ := aligned_afterBubble calm recoverable spares
  have holds : (final.Aligned ∧ (final.Reading ∨ final.Done))
      ∧ ∀ place, link.outstanding idx place ≠ none →
        final.requests place = link.outstanding idx place := by
    apply run.invariant ⟨⟨aligned, place⟩, fun _ _ => rfl⟩
    rintro pipe operation next ⟨⟨aligned, place⟩, kept⟩ ⟨⟨proper, sparesOn⟩, rfl⟩
    obtain ⟨after, nextPlace, keeps⟩ := aligned.step place proper sparesOn
    refine ⟨⟨after, nextPlace⟩, ?_⟩
    intro other isRequest
    rw [keeps other (by rw [kept other isRequest]; exact isRequest), kept other isRequest]
  have isFirst : link.outstanding idx 0 = some reqId := by
    have valid := (recoverable.added 0 (Nat.zero_le _)).1
    rw [incIdx_zero (findSlotFrom_lt calm.rdInRing recoverable.found)] at valid
    show (link.slot idx).request = some reqId
    unfold Slot.request
    rw [if_pos valid, reqId_of_findSlotFrom recoverable.found]
  refine ⟨?_, holds.2, holds.1.1.received⟩
  rw [holds.2 0 (by rw [isFirst]; exact nofun), isFirst]

/-- A sensor, which is one frame ahead, and an image processor. -/
def sensorFirst : List DeviceInfo :=
  [⟨2, .sensor, 1, one_lt_camPipelineDelayMax, true, false⟩,
    ⟨1, .ife, 0, camPipelineDelayMax_pos, true, false⟩]

/-- A request with recovery is scheduled and both devices add it. -/
def addedForRecovery (reqId : Int) : List Operation :=
  [.call (.scheduleRequest reqId true), .call (.addReq ⟨1, reqId, false, 0, 0⟩),
    .call (.addReq ⟨2, reqId, false, 0, 0⟩)]

/-- A request is scheduled, both devices add it, and it is sent. -/
def oneSent : List PipelineOperation :=
  [.scheduleRequest 1 true, .addReq ⟨1, 1, false, 0, 0⟩, .addReq ⟨2, 1, false, 0, 0⟩,
    .trigger 0 fun _ => 0]

theorem inOrder_oneSent : (oneSent.foldl step (fresh sensorFirst)).InOrder := by
  refine inOrder_of_spares (by decide) (Reaches.foldl ?_)
  refine ⟨?_, ?_, ?_, ?_, trivial⟩ <;> decide +kernel

/-- Two requests have been sent. -/
def twoSent : List Operation :=
  addedForRecovery 1 ++ [.call (.trigger .sof 0 fun _ => 0)] ++ addedForRecovery 2
    ++ [.call (.trigger .sof 0 fun _ => 0)]

/-- Two triggers after the bubble. -/
def twoTriggers : List PipelineOperation := [.trigger 0 fun _ => 0, .trigger 2 fun _ => 0]

theorem recovered_twoSent :
    (twoTriggers.foldl step ((twoSent.foldl operate (setup sensorFirst)).afterBubble 1 0
      .sof fun _ => 0)).Recovered 1
        ((twoSent.foldl operate (setup sensorFirst)).outstanding 0) := by
  have before : Allowed NoEof operate (setup sensorFirst) twoSent := by
    refine ⟨?_, ?_, ?_, ?_, ?_, ?_, ?_, ?_, trivial⟩ <;> decide +kernel
  have recoverable : (twoSent.foldl operate (setup sensorFirst)).Recoverable 1 0 := by
    constructor <;> decide +kernel
  have spares : (twoSent.foldl operate (setup sensorFirst)).SparesOnBubble 0 .sof
      fun _ => 0 := by
    constructor <;> decide +kernel
  have after : Allowed (fun pipe operation => pipe.Proper operation ∧ pipe.SparesOn operation) step
      ((twoSent.foldl operate (setup sensorFirst)).afterBubble 1 0 .sof fun _ => 0)
      twoTriggers := by
    refine ⟨?_, ?_, trivial⟩ <;> decide +kernel
  exact recovered_of_spares (by decide) (Reaches.foldl before) recoverable spares
    (Reaches.foldl after)

/-- The second request has been given to the sensor when the image processor fails. -/
def sentInPart : List Operation :=
  addedForRecovery 1 ++ [.call (.trigger .sof 0 fun _ => 0)] ++ addedForRecovery 2
    ++ [.call (.trigger .sof 0 fun dev => if dev.devHdl = 1 then -1 else 0)]

/-- The sensor is not given the second request again after a bubble on the first one. -/
theorem not_recovered :
    ¬∀ infos link reqId idx trigger answers final, (∀ info ∈ infos, info.atSof) →
      Reaches (guarded NoEof operate) (setup infos) link →
      link.Recoverable reqId idx →
      Reaches (guarded Proper step) (link.afterBubble reqId idx trigger answers) final →
      final.Recovered reqId (link.outstanding idx) := by
  intro recovers
  have before : Allowed NoEof operate (setup sensorFirst) sentInPart := by
    refine ⟨?_, ?_, ?_, ?_, ?_, ?_, ?_, ?_, trivial⟩ <;> decide +kernel
  have after : Allowed Proper step ((sentInPart.foldl operate
      (setup sensorFirst)).afterBubble 1 0 .sof fun _ => 0) [.trigger 0 fun _ => 0] := by
    refine ⟨?_, trivial⟩
    decide +kernel
  have recovered := recovers sensorFirst _ 1 0 .sof (fun _ => 0) _ (by decide)
    (Reaches.foldl before) (by constructor <;> decide +kernel) (Reaches.foldl after)
  have received := recovered.received ⟨⟨2, .sensor, 1, by decide, true, false⟩, 0⟩
  revert received
  decide +kernel

end Pipeline

end Sm8650.Crm
