import Sm8650.Crm.Effects
import Sm8650.Transition.Reach

/-!
# Requests on their way through a link

The requests have places, counted from the slot where the first of them is. The places go round
the ring of slots; those that matter are the ones from which some device is still to be served
and the ones ahead, up to the slots that have not been given up yet. After a number of sends a
device of a pipeline delay has been given the requests of the places that its table has read.
-/

namespace Sm8650.Crm

open Function List Link

namespace Slot

/-- The request of a slot. -/
def request (slot : Slot) : Option Int := if 0 ≤ slot.reqId then some slot.reqId else none

/-- The request of a slot that has not been applied. -/
def awaited (slot : Slot) : Option Int :=
  match slot.status with
  | .reqAdded | .reqPending | .reqReady => slot.request
  | .noReq | .reqApplied => none

/-- A slot that has been given up. -/
def unused : Slot := ⟨-1, false, .noReq, false⟩

theorem awaited_of_status {slot : Slot} (notNone : slot.status ≠ .noReq)
    (notApplied : slot.status ≠ .reqApplied) : slot.awaited = slot.request := by
  unfold awaited
  cases status : slot.status with
  | noReq => exact absurd status notNone
  | reqApplied => exact absurd status notApplied
  | reqAdded | reqPending | reqReady => rfl

end Slot

/-- A link with what its triggers have sent. -/
structure Pipeline where
  link : Link
  start : Nat
  sends : Nat
  requests : Nat → Option Int
  given : List (Device × Int)

/-- The operations on a link whose devices are all triggered at the start of a frame. -/
inductive PipelineOperation
  | scheduleRequest (reqId : Int) (bubbleEnable : Bool)
  | addReq (addReq : AddRequest)
  | trigger (reqId : Int) (answers : Answers)

namespace Pipeline

/-- The slot of a place. -/
def slotOf (pipe : Pipeline) (place : Nat) : Nat := incIdx pipe.start place

/-- The place of a slot, of those from the next one on that is to be read. -/
def placeOf (pipe : Pipeline) (idx : Nat) : Nat :=
  pipe.sends + (idx + maxReqSlots - pipe.slotOf pipe.sends) % maxReqSlots

/-- What a device has been given. -/
def received (pipe : Pipeline) (dev : Device) : List Int :=
  (pipe.given.filter fun pair => pair.1 = dev).map Prod.snd

/-- The requests that the devices of a pipeline delay are given in a number of sends: the first
send serves those of the largest delay, and the others follow at their distance. -/
def servedUpTo (pipe : Pipeline) (pDelay : Nat) : List Int :=
  (List.range (pipe.sends - (pipe.link.maxDelay - pDelay))).filterMap pipe.requests

/-- The trigger has sent a request and it has been applied to all devices. -/
def Succeeded (outcome : Link × List (Device × Int) × Option Int) : Prop :=
  ∃ rc ∈ outcome.2.2, 0 ≤ rc ∧ (outcome.1.slot outcome.1.rdIdx).status = .reqApplied

instance (outcome : Link × List (Device × Int) × Option Int) : Decidable (Succeeded outcome) :=
  inferInstanceAs (Decidable (∃ _ ∈ outcome.2.2, _ ∧ _))

/-- What has been done by a trigger is recorded. -/
def record (pipe : Pipeline) (outcome : Link × List (Device × Int) × Option Int) : Pipeline :=
  { pipe with
    link := outcome.1
    sends := if Succeeded outcome then pipe.sends + 1 else pipe.sends
    given := pipe.given ++ outcome.2.1 }

/-- One operation. -/
def step (pipe : Pipeline) : PipelineOperation → Pipeline
  | .scheduleRequest reqId bubbleEnable =>
    match pipe.link.scheduleRequest reqId bubbleEnable with
    | (link, true) =>
      { pipe with
        link := link
        requests := Function.update pipe.requests (pipe.placeOf pipe.link.wrIdx)
          (link.slot pipe.link.wrIdx).request }
    | (link, false) => { pipe with link := link }
  | .addReq addReq => { pipe with link := pipe.link.addReq addReq }
  | .trigger reqId answers => pipe.record (pipe.link.processTrigger .sof reqId answers)

/-- Some device is still to be given the request of a place. -/
def Owed (pipe : Pipeline) (place : Nat) : Prop :=
  pipe.requests place ≠ none ∧ (pipe.sends ≤ place
    ∨ ∃ dev ∈ pipe.link.devs, pipe.sends ≤ place + (pipe.link.maxDelay - dev.pDelay))

instance (pipe : Pipeline) (place : Nat) : Decidable (pipe.Owed place) :=
  inferInstanceAs (Decidable (_ ∧ (_ ∨ ∃ dev ∈ pipe.link.devs, _)))

/-- The slots of the link are the places up to the largest distance behind the next one to be
read and those ahead of it whose slots have been given up by the requests before. -/
def Near (pipe : Pipeline) (place : Nat) : Prop :=
  pipe.sends ≤ place + pipe.link.maxDelay + 1
    ∧ (place < maxReqSlots ∨ place + pipe.link.maxDelay + 1 < pipe.sends + maxReqSlots)

instance (pipe : Pipeline) (place : Nat) : Decidable (pipe.Near place) :=
  inferInstanceAs (Decidable (_ ∧ _))

/-! ## The slots and the places -/

variable {pipe : Pipeline}

theorem slotOf_injective {first second : Nat}
    (firstNear : pipe.Near first) (secondNear : pipe.Near second)
    (same : pipe.slotOf first = pipe.slotOf second) : first = second := by
  unfold slotOf at same
  rw [incIdx_eq_iff] at same
  unfold Near at firstNear secondNear
  unfold maxReqSlots at *
  omega

/-- What a slot and the maps of the devices that have its request are to be at a place. -/
structure Fits (pipe : Pipeline) (place : Nat) (slot : Slot) (maps : Nat → BitVec 32) : Prop where
  served : place < pipe.sends → slot.status ≠ .reqAdded
  behind : place < pipe.sends → ∀ dev ∈ pipe.link.devs,
    pipe.sends ≤ place + (pipe.link.maxDelay - dev.pDelay) → slot.request = pipe.requests place
  ahead : pipe.sends ≤ place → slot.awaited = pipe.requests place ∧ slot.status ≠ .reqReady
  clear : pipe.requests place ≠ none → ∀ dev ∈ pipe.link.devs,
    pipe.sends ≤ place + (pipe.link.maxDelay - dev.pDelay) → maps dev.pDelay = 0
  late : pipe.sends + maxReqSlots ≤ place + pipe.link.maxDelay + 1 →
    slot.status = .reqPending → pipe.requests place = none

/-- The maps of the devices that have the request of a slot. -/
def maps (link : Link) (idx : Nat) (pd : Nat) : BitVec 32 := (link.tblSlot pd idx).reqApplyMap

/-- The link is as the places of the requests say, and the devices have been given what they
say. -/
structure Aligned (pipe : Pipeline) : Prop where
  framed : pipe.link.Framed
  quiet : pipe.link.Quiet
  atSof : ∀ dev ∈ pipe.link.devs, dev.atSof
  wrInRing : pipe.link.wrIdx < maxReqSlots
  skips : ∀ tbl ∈ pipe.link.lTbl, tbl.skipTraverse = pipe.link.maxDelay - tbl.pd - pipe.sends
  fits : ∀ place, pipe.Near place →
    pipe.Fits place (pipe.link.slot (pipe.slotOf place)) (maps pipe.link (pipe.slotOf place))
  beyond : ∀ place, ¬pipe.Near place → pipe.sends ≤ place → pipe.requests place = none
  received : ∀ dev ∈ pipe.link.devs, pipe.received dev = pipe.servedUpTo dev.pDelay

/-- The link is to read the next place. -/
def Reading (pipe : Pipeline) : Prop :=
  pipe.link.rdIdx = pipe.slotOf pipe.sends ∧ (pipe.link.slot pipe.link.rdIdx).status ≠ .reqApplied

/-- The link has read the last place. -/
def Done (pipe : Pipeline) : Prop :=
  ∃ before, pipe.sends = before + 1 ∧ pipe.link.rdIdx = pipe.slotOf before
    ∧ ((pipe.link.slot pipe.link.rdIdx).status = .reqApplied
      ∨ (pipe.link.slot pipe.link.rdIdx).status = .noReq)

/-- The link changes. -/
def relink (pipe : Pipeline) (link : Link) : Pipeline := { pipe with link := link }

variable {place : Nat}

theorem fits_relink {link : Link} (devs : link.devs = pipe.link.devs)
    (maxDelay : link.maxDelay = pipe.link.maxDelay) {slot : Slot} {maps : Nat → BitVec 32}
    (fits : pipe.Fits place slot maps) : (pipe.relink link).Fits place slot maps := by
  unfold relink
  constructor
  case served => exact fits.served
  case behind =>
    rw [devs, maxDelay]
    exact fits.behind
  case ahead => exact fits.ahead
  case clear =>
    rw [devs, maxDelay]
    exact fits.clear
  case late =>
    rw [maxDelay]
    exact fits.late

/-- The link changes in slots only. -/
theorem Aligned.relink (aligned : pipe.Aligned) {link : Link} (keeps : pipe.link.KeepsShape link)
    (quiet : link.Quiet) (wrInRing : link.wrIdx < maxReqSlots)
    (skip : link.lTbl.map ReqTbl.skip = pipe.link.lTbl.map ReqTbl.skip)
    (fits : ∀ place, pipe.Near place →
      pipe.Fits place (link.slot (pipe.slotOf place)) (maps link (pipe.slotOf place))) :
    (pipe.relink link).Aligned where
  framed := aligned.framed.keep keeps
  quiet := quiet
  atSof := by
    show ∀ dev ∈ link.devs, dev.atSof
    rw [keeps.devs]
    exact aligned.atSof
  wrInRing := wrInRing
  skips := by
    show ∀ tbl ∈ link.lTbl, tbl.skipTraverse = link.maxDelay - tbl.pd - pipe.sends
    intro tbl among
    have isSkip : tbl.skip ∈ pipe.link.lTbl.map ReqTbl.skip := by
      rw [← skip]
      exact mem_map_of_mem among
    obtain ⟨before, beforeAmong, same⟩ := mem_map.mp isSkip
    have isPd : before.pd = tbl.pd := congrArg Prod.fst same
    have sameSkip : before.skipTraverse = tbl.skipTraverse := congrArg Prod.snd same
    rw [keeps.maxDelay, ← isPd, ← sameSkip]
    exact aligned.skips before beforeAmong
  fits place near := by
    have isNear : pipe.Near place := by
      unfold Near Pipeline.relink at near
      rw [keeps.maxDelay] at near
      exact near
    exact fits_relink keeps.devs keeps.maxDelay (fits place isNear)
  beyond place far := by
    unfold Near Pipeline.relink at far
    rw [keeps.maxDelay] at far
    exact aligned.beyond place far
  received := by
    unfold servedUpTo Pipeline.relink
    rw [keeps.devs, keeps.maxDelay]
    exact aligned.received

/-! ## Slots are given up -/

theorem fits_unused (notOwed : ¬pipe.Owed place) : pipe.Fits place .unused fun _ => 0 where
  served _ := by decide
  behind _ dev among toServe := by
    by_contra isRequest
    exact notOwed ⟨fun isNone => isRequest isNone.symm, .inr ⟨dev, among, toServe⟩⟩
  ahead isAhead := by
    refine ⟨?_, by decide⟩
    by_contra isRequest
    exact notOwed ⟨fun isNone => isRequest isNone.symm, .inl isAhead⟩
  clear _ _ _ _ := rfl
  late isLate := fun isPending => nomatch isPending

/-- No request that is still to be given is in a slot that is given up. -/
def Spares (pipe : Pipeline) (link : Link) (idx : Nat) : Prop :=
  link.GivesUp idx → ∀ place < pipe.sends + maxReqSlots, pipe.Owed place → pipe.slotOf place ≠ idx

instance (pipe : Pipeline) (link : Link) (idx : Nat) : Decidable (pipe.Spares link idx) :=
  inferInstanceAs (Decidable (_ → ∀ place < _, _ → _))

theorem Near.lt (near : pipe.Near place) : place < pipe.sends + maxReqSlots := by
  unfold Near at near
  omega

theorem Aligned.resetReqSlot (aligned : pipe.Aligned) {idx : Nat} (spares : pipe.Spares pipe.link idx) :
    (pipe.relink (pipe.link.resetReqSlot idx)).Aligned := by
  apply aligned.relink (keeps_resetReqSlot pipe.link idx).toKeepsShape
  case quiet =>
    intro pd other
    rw [tblSlot_resetReqSlot]
    split
    · rfl
    · exact aligned.quiet pd other
  case wrInRing =>
    rw [wrIdx_resetReqSlot]
    exact aligned.wrInRing
  case skip => exact skip_resetReqSlot pipe.link idx
  case fits =>
    intro place near
    have before := aligned.fits place near
    unfold maps at before ⊢
    simp only [slot_resetReqSlot, tblSlot_resetReqSlot]
    by_cases here : pipe.link.GivesUp idx ∧ pipe.slotOf place = idx
    · simp only [if_pos here]
      exact fits_unused fun owed => spares here.1 place near.lt owed here.2
    · simp only [if_neg here]
      exact before

theorem Aligned.setLastApplied (aligned : pipe.Aligned) (last : Option Nat) :
    (pipe.relink (pipe.link.setLastApplied last)).Aligned :=
  aligned.relink (keeps_setLastApplied pipe.link last).toKeepsShape aligned.quiet
    aligned.wrInRing rfl aligned.fits

/-- The slot that the request of a trigger gives up is not needed. -/
def SparesOnTrigger (pipe : Pipeline) (reqId : Int) : Prop :=
  ∀ idx ∈ pipe.link.findSlotForReq reqId,
    pipe.Spares (pipe.link.forgetLastApplied idx)
      (decIdx (if idx = pipe.link.rdIdx then decIdx idx 1 else idx) (pipe.link.maxDelay + 1))

instance (pipe : Pipeline) (reqId : Int) : Decidable (pipe.SparesOnTrigger reqId) :=
  inferInstanceAs (Decidable (∀ _ ∈ _, _))

variable {reqId : Int}

theorem Aligned.recycle (aligned : pipe.Aligned) (spares : pipe.SparesOnTrigger reqId)
    : (pipe.relink (pipe.link.recycle reqId)).Aligned := by
  unfold Link.recycle
  cases found : pipe.link.findSlotForReq reqId with
  | none => exact aligned
  | some idx => exact (aligned.setLastApplied _).resetReqSlot (spares idx found)

variable (link : Link)

theorem rdIdx_recycle (reqId : Int) : (link.recycle reqId).rdIdx = link.rdIdx := by
  unfold Link.recycle
  cases link.findSlotForReq reqId with
  | none => rfl
  | some idx =>
    rw [rdIdx_resetReqSlot]
    rfl

/-- A slot has been given up or it is as before. -/
theorem slot_recycle (reqId : Int) (idx : Nat) :
    (link.recycle reqId).slot idx = link.slot idx ∨ (link.recycle reqId).slot idx = .unused := by
  unfold Link.recycle
  cases link.findSlotForReq reqId with
  | none => exact .inl rfl
  | some found =>
    rw [slot_resetReqSlot]
    split_ifs <;> first | exact .inl rfl | exact .inr rfl

theorem Reading.recycle (reading : pipe.Reading) (reqId : Int) :
    (pipe.relink (pipe.link.recycle reqId)).Reading := by
  refine ⟨(rdIdx_recycle pipe.link reqId).trans reading.1, ?_⟩
  show ((pipe.link.recycle reqId).slot (pipe.link.recycle reqId).rdIdx).status ≠ .reqApplied
  rw [rdIdx_recycle]
  rcases slot_recycle pipe.link reqId pipe.link.rdIdx with same | gone
  · rw [same]
    exact reading.2
  · rw [gone]
    decide

theorem Done.recycle (done : pipe.Done) (reqId : Int) :
    (pipe.relink (pipe.link.recycle reqId)).Done := by
  obtain ⟨before, isBefore, isRead, status⟩ := done
  refine ⟨before, isBefore, (rdIdx_recycle pipe.link reqId).trans isRead, ?_⟩
  show ((pipe.link.recycle reqId).slot (pipe.link.recycle reqId).rdIdx).status = .reqApplied
    ∨ ((pipe.link.recycle reqId).slot (pipe.link.recycle reqId).rdIdx).status = .noReq
  rw [rdIdx_recycle]
  rcases slot_recycle pipe.link reqId pipe.link.rdIdx with same | gone
  · rw [same]
    exact status
  · rw [gone]
    exact .inr rfl

/-! ## Moving on -/

/-- The next slot is given up if it still has a request that has been applied. -/
def cleared (link : Link) (idx : Nat) : Link :=
  if (link.slot idx).status = .reqApplied then (link.forgetLastApplied idx).resetReqSlot idx
  else link

/-- The next slot is read without a request. -/
def filled (link : Link) (idx : Nat) : Link :=
  { (link.inQSkipIdx idx).setStatus idx .reqAdded with
    contEmptySlots := link.contEmptySlots + 1
    wrIdx := if link.wrIdx = idx then incIdx link.wrIdx 1 else link.wrIdx
    rdIdx := idx }

theorem moveToNextReqSlot_eq :
    link.moveToNextReqSlot =
      if ((cleared link (incIdx link.rdIdx 1)).slot (incIdx link.rdIdx 1)).status = .noReq then
        if (cleared link (incIdx link.rdIdx 1)).devs.all fun dev =>
            (cleared link (incIdx link.rdIdx 1)).maxDelay ≤ dev.pDelay then
          (cleared link (incIdx link.rdIdx 1), false)
        else if (cleared link (incIdx link.rdIdx 1)).maxDelay
            ≤ (cleared link (incIdx link.rdIdx 1)).contEmptySlots then
          ({ cleared link (incIdx link.rdIdx 1) with
              contEmptySlots := (cleared link (incIdx link.rdIdx 1)).contEmptySlots + 1 }, false)
        else (filled (cleared link (incIdx link.rdIdx 1)) (incIdx link.rdIdx 1), true)
      else
        ({ cleared link (incIdx link.rdIdx 1) with
            contEmptySlots := 0, rdIdx := incIdx link.rdIdx 1 }, true) := rfl

theorem status_cleared (idx : Nat) : ((cleared link idx).slot idx).status ≠ .reqApplied := by
  unfold cleared
  split
  case isFalse notApplied => exact notApplied
  case isTrue isApplied =>
    have givesUp : (link.forgetLastApplied idx).GivesUp idx := by
      refine ⟨?_, ?_⟩
      · show (link.slot idx).status ≠ .reqAdded
        rw [isApplied]
        decide
      · unfold forgetLastApplied
        split
        · exact fun impossible => nomatch impossible
        · assumption
    rw [slot_resetReqSlot, if_pos ⟨givesUp, rfl⟩]
    decide

theorem near_sends (framed : pipe.link.Framed) : pipe.Near pipe.sends := by
  have small := framed.delayValid
  unfold Near camPipelineDelayMax maxReqSlots at *
  omega

theorem Aligned.near_of_owed (aligned : pipe.Aligned) (owed : pipe.Owed place) :
    pipe.Near place := by
  by_contra far
  have valid := aligned.framed.delayValid
  rcases owed.2 with isAhead | ⟨dev, _, toServe⟩
  · exact owed.1 (aligned.beyond place far isAhead)
  · by_cases isAhead : pipe.sends ≤ place
    · exact owed.1 (aligned.beyond place far isAhead)
    · unfold Near camPipelineDelayMax maxReqSlots at *
      omega

theorem Aligned.cleared (aligned : pipe.Aligned) :
    (pipe.relink (cleared pipe.link (pipe.slotOf pipe.sends))).Aligned := by
  unfold Pipeline.cleared
  split
  case isFalse => exact aligned
  case isTrue isApplied =>
    have forgotten := aligned.setLastApplied
      (if pipe.link.lastAppliedIdx = some (pipe.slotOf pipe.sends) then none
        else pipe.link.lastAppliedIdx)
    apply forgotten.resetReqSlot
    intro _ place _ owed here
    have isNext := slotOf_injective (forgotten.near_of_owed owed) (near_sends forgotten.framed) here
    have ahead := ((aligned.fits _ (near_sends aligned.framed)).ahead (Nat.le_refl _)).1
    apply owed.1
    rw [isNext]
    show pipe.requests pipe.sends = none
    rw [← ahead]
    unfold Slot.awaited
    rw [isApplied]

/-- The next place is read without a request if it has none. -/
theorem Aligned.filled (aligned : pipe.Aligned)
    (isNone : (pipe.link.slot (pipe.slotOf pipe.sends)).status = .noReq) :
    (pipe.relink (filled pipe.link (pipe.slotOf pipe.sends))).Aligned := by
  have near := near_sends aligned.framed
  have noRequest : pipe.requests pipe.sends = none := by
    rw [← ((aligned.fits _ near).ahead (Nat.le_refl _)).1]
    unfold Slot.awaited
    rw [isNone]
  have keeps : pipe.link.KeepsShape (Pipeline.filled pipe.link (pipe.slotOf pipe.sends)) :=
    ⟨rfl, rfl, rfl, rfl⟩
  apply aligned.relink keeps
  case quiet => exact aligned.quiet
  case wrInRing =>
    show (if _ then _ else _) < maxReqSlots
    split
    · exact incIdx_lt _ _
    · exact aligned.wrInRing
  case skip => rfl
  case fits =>
    intro place placeNear
    have before := aligned.fits place placeNear
    by_cases here : pipe.slotOf place = pipe.slotOf pipe.sends
    · have isNext := slotOf_injective placeNear near here
      have slot : (Pipeline.filled pipe.link (pipe.slotOf pipe.sends)).slot (pipe.slotOf pipe.sends)
          = { pipe.link.slot (pipe.slotOf pipe.sends) with
              reqId := -1, skipIdx := true, status := .reqAdded } := by
        simp [Pipeline.filled, setStatus, inQSkipIdx, updateSlot]
      rw [isNext, slot]
      constructor
      case served => exact fun isBefore => absurd isBefore (Nat.lt_irrefl _)
      case behind => exact fun isBefore => absurd isBefore (Nat.lt_irrefl _)
      case ahead => exact fun _ => ⟨noRequest.symm, fun isReady => nomatch isReady⟩
      case clear => exact fun isRequest => absurd noRequest isRequest
      case late => exact fun _ isPending => nomatch isPending
    · have slot : (Pipeline.filled pipe.link (pipe.slotOf pipe.sends)).slot (pipe.slotOf place)
          = pipe.link.slot (pipe.slotOf place) := by
        simp [Pipeline.filled, setStatus, inQSkipIdx, updateSlot, here]
      rw [slot]
      exact before

theorem rdIdx_cleared (idx : Nat) : (Pipeline.cleared link idx).rdIdx = link.rdIdx := by
  unfold Pipeline.cleared
  split
  · exact rdIdx_resetReqSlot _ _
  · rfl

theorem slot_cleared (idx other : Nat) :
    (Pipeline.cleared link idx).slot other = link.slot other
      ∨ (Pipeline.cleared link idx).slot other = .unused := by
  unfold Pipeline.cleared
  split
  case isFalse => exact .inl rfl
  case isTrue =>
    rw [slot_resetReqSlot]
    split
    · exact .inr rfl
    · exact .inl rfl

theorem Done.cleared (done : pipe.Done) (idx : Nat) :
    (pipe.relink (Pipeline.cleared pipe.link idx)).Done := by
  obtain ⟨before, isBefore, isRead, status⟩ := done
  refine ⟨before, isBefore, (rdIdx_cleared pipe.link idx).trans isRead, ?_⟩
  unfold Pipeline.relink
  rw [rdIdx_cleared]
  rcases slot_cleared pipe.link idx pipe.link.rdIdx with same | gone
  · rw [same]
    exact status
  · rw [gone]
    exact .inr rfl

/-- What is to hold when the link has moved on, or not. -/
def Moved (pipe : Pipeline) (next : Link) (moves : Bool) : Prop :=
  (pipe.relink next).Aligned ∧ if moves then (pipe.relink next).Reading else (pipe.relink next).Done

/-- The next place is read, or the link stays at the last one. -/
theorem Aligned.moveToNextReqSlot (aligned : pipe.Aligned) (done : pipe.Done) :
    pipe.Moved pipe.link.moveToNextReqSlot.1 pipe.link.moveToNextReqSlot.2 := by
  have isNext : incIdx pipe.link.rdIdx 1 = pipe.slotOf pipe.sends := by
    obtain ⟨before, isBefore, isRead, _⟩ := done
    rw [isRead, isBefore]
    exact incIdx_incIdx pipe.start before 1
  have cleared := aligned.cleared
  have clearedDone := done.cleared (pipe.slotOf pipe.sends)
  have notApplied := status_cleared pipe.link (pipe.slotOf pipe.sends)
  rw [moveToNextReqSlot_eq, isNext]
  by_cases isNone : ((Pipeline.cleared pipe.link (pipe.slotOf pipe.sends)).slot
      (pipe.slotOf pipe.sends)).status = .noReq
  · rw [if_pos isNone]
    split
    · exact ⟨cleared, clearedDone⟩
    · split
      · exact ⟨cleared.relink ⟨rfl, rfl, rfl, rfl⟩ cleared.quiet cleared.wrInRing rfl cleared.fits,
          clearedDone⟩
      · refine ⟨cleared.filled isNone, rfl, ?_⟩
        simp [Pipeline.relink, Pipeline.filled, setStatus, updateSlot]
  · rw [if_neg isNone]
    exact ⟨cleared.relink ⟨rfl, rfl, rfl, rfl⟩ cleared.quiet cleared.wrInRing rfl cleared.fits,
      rfl, notApplied⟩

/-- Before a request is processed the link reads the next place, or stays at the last one. -/
theorem Aligned.advance (aligned : pipe.Aligned) (place : pipe.Reading ∨ pipe.Done)
    (spares : pipe.SparesOnTrigger reqId) :
    (pipe.relink (pipe.link.advance .sof reqId).1).Aligned
      ∧ ((pipe.relink (pipe.link.advance .sof reqId).1).Reading
        ∨ (pipe.relink (pipe.link.advance .sof reqId).1).Done) := by
  have recycled := aligned.recycle spares
  have still : (pipe.relink (pipe.link.recycle reqId)).Reading
      ∨ (pipe.relink (pipe.link.recycle reqId)).Done :=
    place.imp (fun reading => reading.recycle reqId) fun done => done.recycle reqId
  unfold Link.advance
  dsimp only
  rw [if_pos rfl]
  split
  · exact ⟨recycled, still⟩
  · split
    case isTrue isApplied =>
      have done : (pipe.relink (pipe.link.recycle reqId)).Done := by
        rcases still with reading | done
        · exact absurd isApplied.2 reading.2
        · exact done
      have moved := recycled.moveToNextReqSlot done
      refine ⟨moved.1, ?_⟩
      have next := moved.2
      split at next
      · exact .inl next
      · exact .inr next
    case isFalse => exact ⟨recycled, still⟩

/-! ## A request is processed -/

theorem maps_congr {link next : Link} (bare : next.lTbl.map ReqTbl.bare = link.lTbl.map ReqTbl.bare)
    (idx : Nat) : maps next idx = maps link idx := by
  funext pd
  have same := bare_tblSlot_congr bare pd idx
  exact congrArg (fun slot => slot.reqApplyMap) same

theorem rdIdx_lt (place : pipe.Reading ∨ pipe.Done) : pipe.link.rdIdx < maxReqSlots := by
  rcases place with reading | ⟨before, _, isRead, _⟩
  · rw [reading.1]
    exact incIdx_lt _ _
  · rw [isRead]
    exact incIdx_lt _ _

/-- The request that is waiting to be sent is the one of the next place. -/
theorem Aligned.request_of_pending (aligned : pipe.Aligned) (reading : pipe.Reading)
    (isPending : pipe.link.Pending) :
    (pipe.link.slot pipe.link.rdIdx).request = pipe.requests pipe.sends := by
  have ahead := ((aligned.fits _ (near_sends aligned.framed)).ahead (Nat.le_refl _)).1
  rw [← reading.1, Slot.awaited_of_status] at ahead
  · exact ahead
  · intro isNone
    rcases isPending with isAdded | isPending
    · exact nomatch isAdded.symm.trans isNone
    · exact nomatch isPending.symm.trans isNone
  · exact reading.2

/-- Nothing is sent while the link waits for the request of the next place. -/
theorem Aligned.waits (aligned : pipe.Aligned) (reading : pipe.Reading) {next : Link}
    (waits : pipe.link.Waits next) : (pipe.relink next).Aligned ∧ (pipe.relink next).Reading := by
  have near := near_sends aligned.framed
  constructor
  case left =>
    apply aligned.relink waits.toKeepsShape (aligned.quiet.congr waits.bare)
    case wrInRing => exact waits.wrIdx ▸ aligned.wrInRing
    case skip => exact waits.skip
    case fits =>
      intro place placeNear
      have before := aligned.fits place placeNear
      rw [maps_congr waits.bare]
      rcases waits.slot with same | ⟨isPending, pends⟩
      · rw [same]
        exact before
      · rw [pends]
        by_cases here : pipe.slotOf place = pipe.link.rdIdx
        · have isNext := slotOf_injective placeNear near (here.trans reading.1)
          have slot : (pipe.link.setStatus pipe.link.rdIdx .reqPending).slot (pipe.slotOf place)
              = { pipe.link.slot pipe.link.rdIdx with status := .reqPending } := by
            rw [here]
            exact update_self _ _ _
          have request := aligned.request_of_pending reading isPending
          rw [slot]
          constructor
          case served => exact fun isBefore => absurd isBefore (by omega)
          case behind => exact fun isBefore => absurd isBefore (by omega)
          case ahead =>
            rw [isNext]
            exact fun _ => ⟨request, fun isReady => nomatch isReady⟩
          case clear => exact before.clear
          case late =>
            have small := aligned.framed.delayValid
            unfold camPipelineDelayMax maxReqSlots at *
            omega
        · have slot : (pipe.link.setStatus pipe.link.rdIdx .reqPending).slot (pipe.slotOf place)
              = pipe.link.slot (pipe.slotOf place) := update_of_ne here _ _
          rw [slot]
          exact before
  case right =>
    refine ⟨waits.rdIdx.trans reading.1, ?_⟩
    show (next.slot next.rdIdx).status ≠ .reqApplied
    rw [waits.rdIdx]
    rcases waits.slot with same | ⟨_, pends⟩
    · rw [same]
      exact reading.2
    · rw [pends]
      unfold setStatus updateSlot
      dsimp only
      rw [update_self]
      exact fun impossible => nomatch impossible

/-! ## A request is sent -/

theorem readAt_eq_of_le (framed : pipe.link.Framed) (reading : pipe.Reading) {pd : Nat}
    (isBehind : pipe.link.maxDelay - pd ≤ pipe.sends) :
    pipe.link.readAt pd = pipe.slotOf (pipe.sends - (pipe.link.maxDelay - pd)) := by
  have small := framed.delayValid
  unfold readAt
  rw [reading.1]
  apply decIdx_incIdx_of_le _ _ isBehind
  unfold camPipelineDelayMax at small
  unfold maxReqSlots
  omega

variable {dev : Device} {ready : Link}

/-- What is found for a device is the request of its place, if it has reached one. -/
theorem Aligned.found (aligned : pipe.Aligned) (reading : pipe.Reading)
    (isPending : pipe.link.Pending) (finds : pipe.link.Finds ready) (among : dev ∈ pipe.link.devs) :
    (ready.applyData dev.pDelay).idx = pipe.link.readAt dev.pDelay
      ∧ (if 0 ≤ (ready.applyData dev.pDelay).reqId then some (ready.applyData dev.pDelay).reqId
          else none)
        = if pipe.link.maxDelay - dev.pDelay ≤ pipe.sends
          then pipe.requests (pipe.sends - (pipe.link.maxDelay - dev.pDelay)) else none := by
  obtain ⟨tbl, tblAmong, isPd⟩ := aligned.framed.hasTbl dev among
  have found := finds.found tbl tblAmong
  have skip := aligned.skips tbl tblAmong
  rw [isPd] at found skip
  rw [found]
  refine ⟨rfl, ?_⟩
  unfold foundAt
  by_cases reached : pipe.link.maxDelay - dev.pDelay ≤ pipe.sends
  · have noSkip : ¬0 < tbl.skipTraverse := by omega
    rw [if_neg noSkip, if_pos reached, readAt_eq_of_le aligned.framed reading reached]
    by_cases isMax : pipe.link.maxDelay - dev.pDelay = 0
    · rw [isMax, Nat.sub_zero, ← reading.1]
      exact aligned.request_of_pending reading isPending
    · have small := aligned.framed.delayValid
      have near : pipe.Near (pipe.sends - (pipe.link.maxDelay - dev.pDelay)) := by
        unfold Near camPipelineDelayMax maxReqSlots at *
        omega
      exact (aligned.fits _ near).behind (by omega) dev among (by omega)
  · have skips : 0 < tbl.skipTraverse := by omega
    rw [if_pos skips, if_neg reached]
    rfl

/-- A device that is found a request has reached the place of one. -/
theorem Aligned.reached (aligned : pipe.Aligned) (reading : pipe.Reading)
    (isPending : pipe.link.Pending) (finds : pipe.link.Finds ready)
    (among : dev ∈ pipe.link.devs) (isFound : 0 ≤ (ready.applyData dev.pDelay).reqId) :
    pipe.link.maxDelay - dev.pDelay ≤ pipe.sends
      ∧ (ready.applyData dev.pDelay).idx
        = pipe.slotOf (pipe.sends - (pipe.link.maxDelay - dev.pDelay))
      ∧ pipe.Near (pipe.sends - (pipe.link.maxDelay - dev.pDelay))
      ∧ pipe.requests (pipe.sends - (pipe.link.maxDelay - dev.pDelay)) ≠ none := by
  obtain ⟨isIdx, isRequest⟩ := aligned.found reading isPending finds among
  rw [if_pos isFound] at isRequest
  have reached : pipe.link.maxDelay - dev.pDelay ≤ pipe.sends := by
    by_contra notReached
    rw [if_neg notReached] at isRequest
    exact nomatch isRequest
  rw [if_pos reached] at isRequest
  refine ⟨reached, ?_, ?_, ?_⟩
  · rw [isIdx, readAt_eq_of_le aligned.framed reading reached]
  · have small := aligned.framed.delayValid
    unfold Near camPipelineDelayMax maxReqSlots at *
    omega
  · rw [← isRequest]
    exact nofun

/-- No device has been marked in the slot where a request is found for a device. -/
theorem Aligned.clear_found (aligned : pipe.Aligned) (reading : pipe.Reading)
    (isPending : pipe.link.Pending) (finds : pipe.link.Finds ready)
    (among : dev ∈ pipe.link.devs) (isFound : 0 ≤ (ready.applyData dev.pDelay).reqId) (nr : Nat) :
    (ready.tblSlot dev.pDelay (ready.applyData dev.pDelay).idx).applied nr = false := by
  obtain ⟨reached, isIdx, near, isRequest⟩ := aligned.reached reading isPending finds among isFound
  have clear := (aligned.fits _ near).clear isRequest dev among (by omega)
  have same := congrFun (maps_congr finds.bare (ready.applyData dev.pDelay).idx) dev.pDelay
  rw [← isIdx] at clear
  rw [TblSlot.applied_eq, show (ready.tblSlot _ _).reqApplyMap = 0 from same.trans clear]
  exact BitVec.getLsbD_zero

/-- A device that is found a request does not have it yet. -/
theorem Aligned.due_eq (aligned : pipe.Aligned) (reading : pipe.Reading)
    (isPending : pipe.link.Pending) (finds : pipe.link.Finds ready) (among : dev ∈ pipe.link.devs) :
    ready.due .sof dev = decide (0 ≤ (ready.applyData dev.pDelay).reqId) := by
  have atSof : dev.atSof = true := aligned.atSof dev among
  have quiet := aligned.quiet.congr finds.bare dev.pDelay (ready.applyData dev.pDelay).idx
  have noOps : (ready.tblSlot dev.pDelay (ready.applyData dev.pDelay).idx).ops.devHdl = [] :=
    congrArg SpecialOps.devHdl quiet
  unfold due Device.triggered
  dsimp only
  rw [noOps, atSof]
  by_cases isFound : 0 ≤ (ready.applyData dev.pDelay).reqId
  · rw [aligned.clear_found reading isPending finds among isFound]
    simp [isFound]
  · simp [isFound]

theorem nodup_of_distinct {devs : List Device} (distinct : Distinct devs) : devs.Nodup :=
  distinct.imp fun apart same => apart (congrArg (·.pDelay) same) (congrArg (·.devBit) same)

/-- What one of the devices is given when those with a property are. -/
theorem filter_foundFor {devs : List Device} (nodup : devs.Nodup) (among : dev ∈ devs)
    (calls : Device → Bool) :
    (((devs.filter calls).map link.foundFor).filter fun pair => pair.1 = dev).map Prod.snd
      = if calls dev then [(link.applyData dev.pDelay).reqId] else [] := by
  have only : (devs.filter calls).filter (fun other => other = dev)
      = if calls dev then [dev] else [] := by
    rw [filter_comm, filter_eq, count_eq_one_of_mem nodup among]
    simp [filter_cons]
  rw [filter_map]
  have first : ((fun pair : Device × Int => decide (pair.1 = dev)) ∘ link.foundFor)
      = fun other => decide (other = dev) := rfl
  rw [first, only]
  split
  · rfl
  · rfl

/-- A request has been sent. -/
def sent (pipe : Pipeline) (next : Link) (given : List (Device × Int)) : Pipeline :=
  { pipe with link := next, sends := pipe.sends + 1, given := pipe.given ++ given }

variable {ready next : Link}

theorem Aligned.received_sent (aligned : pipe.Aligned) (reading : pipe.Reading)
    (isPending : pipe.link.Pending) (sends : pipe.link.Sends ready next) :
    ∀ dev ∈ next.devs,
      (pipe.sent next ((ready.called .sof).map ready.foundFor)).received dev
        = (pipe.sent next ((ready.called .sof).map ready.foundFor)).servedUpTo dev.pDelay := by
  intro dev among
  rw [sends.devs] at among
  have before := aligned.received dev among
  obtain ⟨_, isRequest⟩ := aligned.found reading isPending sends.finds among
  have due := aligned.due_eq reading isPending sends.finds among
  have nodup := nodup_of_distinct aligned.framed.distinct
  have given := filter_foundFor ready nodup among (ready.due .sof)
  unfold Pipeline.received servedUpTo at before
  unfold Pipeline.received servedUpTo sent called
  dsimp only
  rw [sends.finds.devs, sends.maxDelay, filter_append, map_append, given, before, due]
  by_cases reached : pipe.link.maxDelay - dev.pDelay ≤ pipe.sends
  · rw [if_pos reached] at isRequest
    rw [Nat.sub_add_comm reached, range_succ, filterMap_append]
    congr 1
    rw [filterMap_cons, ← isRequest]
    by_cases isFound : 0 ≤ (ready.applyData dev.pDelay).reqId
    · simp [isFound]
    · simp [isFound]
  · rw [if_neg reached] at isRequest
    have notFound : ¬0 ≤ (ready.applyData dev.pDelay).reqId := by
      intro isFound
      rw [if_pos isFound] at isRequest
      exact nomatch isRequest
    have same : pipe.sends + 1 - (pipe.link.maxDelay - dev.pDelay)
        = pipe.sends - (pipe.link.maxDelay - dev.pDelay) := by omega
    rw [same]
    simp [notFound]

/-- The place whose slot is given up when a request has been sent. -/
theorem lastServed_eq (framed : pipe.link.Framed) (reading : pipe.Reading) :
    pipe.link.lastServed = pipe.slotOf (pipe.sends + maxReqSlots - (pipe.link.maxDelay + 1)) := by
  have small := framed.delayValid
  unfold lastServed
  rw [reading.1]
  apply decIdx_incIdx
  unfold camPipelineDelayMax at small
  unfold maxReqSlots
  omega

/-- The place that is given up has no request, if it is given up. -/
theorem Aligned.lastServed_spec (aligned : pipe.Aligned)
    (isLast : place = pipe.sends + maxReqSlots - (pipe.link.maxDelay + 1)) :
    ((pipe.link.slot (pipe.slotOf place)).status ≠ .reqAdded → pipe.requests place = none)
      ∧ ((pipe.link.slot (pipe.slotOf place)).status = .reqAdded → pipe.Near place) := by
  have small := aligned.framed.delayValid
  unfold camPipelineDelayMax at small
  by_cases inFirst : place < maxReqSlots
  · have near : pipe.Near place := by
      unfold Near
      omega
    refine ⟨?_, fun _ => near⟩
    intro notAdded
    have fits := aligned.fits place near
    have isAhead : pipe.sends ≤ place := by
      unfold maxReqSlots at *
      omega
    obtain ⟨awaited, notReady⟩ := fits.ahead isAhead
    cases status : (pipe.link.slot (pipe.slotOf place)).status with
    | reqAdded => exact absurd status notAdded
    | reqReady => exact absurd status notReady
    | reqPending =>
      apply fits.late _ status
      omega
    | noReq | reqApplied =>
      rw [← awaited]
      unfold Slot.awaited
      rw [status]
  · constructor
    · intro _
      apply aligned.beyond place
      · unfold Near
        omega
      · unfold maxReqSlots at *
        omega
    · intro isAdded
      have near : pipe.Near (place - maxReqSlots) := by
        unfold Near
        unfold maxReqSlots at *
        omega
      have same : pipe.slotOf (place - maxReqSlots) = pipe.slotOf place := by
        unfold slotOf
        rw [incIdx_eq_iff]
        unfold maxReqSlots at *
        omega
      have served := (aligned.fits _ near).served (by unfold maxReqSlots at *; omega)
      rw [same] at served
      exact absurd isAdded served

/-- What a send leaves of a slot that it neither sends from nor gives up. -/
theorem Fits.sent {slot : Slot} {before after : Nat → BitVec 32}
    (fits : pipe.Fits place slot before) (isOther : place ≠ pipe.sends) {next : Link}
    (given : List (Device × Int)) (devs : next.devs = pipe.link.devs)
    (maxDelay : next.maxDelay = pipe.link.maxDelay)
    (maps : ∀ dev ∈ pipe.link.devs, pipe.sends + 1 ≤ place + (pipe.link.maxDelay - dev.pDelay) → after dev.pDelay = before dev.pDelay)
    : (pipe.sent next given).Fits place slot after := by
  unfold Pipeline.sent
  constructor
  case served =>
    dsimp only
    exact fun isBefore => fits.served (by omega)
  case behind =>
    dsimp only
    rw [devs]
    exact fun isBefore dev among toServe => fits.behind (by omega) dev among (by omega)
  case ahead =>
    dsimp only
    exact fun isAhead => fits.ahead (by omega)
  case clear =>
    dsimp only
    rw [devs, maxDelay]
    exact fun isRequest dev among toServe =>
      (maps dev among toServe).trans (fits.clear isRequest dev among (by omega))
  case late =>
    dsimp only
    exact fun isLate => fits.late (by omega)

/-- A device that is still to be served at a place has not been marked there. -/
theorem Aligned.maps_sent (aligned : pipe.Aligned) (reading : pipe.Reading)
    (isPending : pipe.link.Pending) (finds : pipe.link.Finds ready) (near : pipe.Near place)
    (toServe : pipe.sends + 1 ≤ place + (pipe.link.maxDelay - dev.pDelay)) :
    maps (ready.marked (ready.called .sof)) (pipe.slotOf place) dev.pDelay
      = maps pipe.link (pipe.slotOf place) dev.pDelay := by
  have unmarked : (ready.marked (ready.called .sof)).tblSlot dev.pDelay (pipe.slotOf place)
      = ready.tblSlot dev.pDelay (pipe.slotOf place) := by
    apply tblSlot_marked_of_unread
    intro other otherCalled samePd isRead
    obtain ⟨otherAmong, otherDue⟩ := mem_filter.mp otherCalled
    rw [finds.devs] at otherAmong
    rw [aligned.due_eq reading isPending finds otherAmong, decide_eq_true_eq] at otherDue
    obtain ⟨reached, isIdx, readNear, _⟩ :=
      aligned.reached reading isPending finds otherAmong otherDue
    rw [samePd] at reached isIdx readNear
    rw [isIdx] at isRead
    have isPlace := slotOf_injective near readNear isRead
    omega
  unfold maps
  rw [unmarked]
  exact congrFun (maps_congr finds.bare (pipe.slotOf place)) dev.pDelay

theorem Aligned.fits_sent (aligned : pipe.Aligned) (reading : pipe.Reading)
    (isPending : pipe.link.Pending) (sends : pipe.link.Sends ready next)
    {given : List (Device × Int)} (near : (pipe.sent next given).Near place) :
    (pipe.sent next given).Fits place (next.slot (pipe.slotOf place))
      (maps next (pipe.slotOf place)) := by
  have small := aligned.framed.delayValid
  have nextMax : (pipe.sent next given).link.maxDelay = pipe.link.maxDelay := sends.maxDelay
  have isLast := lastServed_eq aligned.framed reading
  have spec := aligned.lastServed_spec rfl
  set last := pipe.sends + maxReqSlots - (pipe.link.maxDelay + 1) with isPlace
  have lastNear : (pipe.sent next given).Near last := by
    show pipe.sends + 1 ≤ _ ∧ (_ ∨ _ < pipe.sends + 1 + maxReqSlots)
    unfold maxReqSlots at *
    omega
  have sentFramed : (pipe.sent next given).link.Framed := aligned.framed.keep sends.toKeepsShape
  have slot := sends.slot (pipe.slotOf place)
  have tblSlot := fun pd => sends.tblSlot pd (pipe.slotOf place)
  by_cases gone : (pipe.link.slot (pipe.slotOf place)).status ≠ .reqAdded
      ∧ pipe.slotOf place = pipe.link.lastServed
  · simp only [if_pos gone] at slot tblSlot
    have isLastPlace : place = last :=
      slotOf_injective near lastNear (gone.2.trans isLast)
    have noMaps : maps next (pipe.slotOf place) = fun _ => 0 := by
      funext pd
      unfold maps
      rw [tblSlot]
      rfl
    rw [slot, noMaps]
    apply fits_unused
    rintro ⟨isRequest, _⟩
    rw [isLastPlace] at gone isRequest
    exact isRequest (spec.1 gone.1)
  · simp only [if_neg gone] at slot tblSlot
    have isMarked : maps next (pipe.slotOf place)
        = maps (ready.marked (ready.called .sof)) (pipe.slotOf place) := by
      funext pd
      exact congrArg TblSlot.reqApplyMap (tblSlot pd)
    rw [slot, isMarked]
    by_cases here : pipe.slotOf place = pipe.link.rdIdx
    case pos =>
      have sendsNear : (pipe.sent next given).Near pipe.sends := by
        show pipe.sends + 1 ≤ _ ∧ (_ ∨ _ < pipe.sends + 1 + maxReqSlots)
        unfold camPipelineDelayMax maxReqSlots at *
        omega
      have isNext : place = pipe.sends :=
        slotOf_injective near sendsNear (here.trans reading.1)
      have request := aligned.request_of_pending reading isPending
      have oldNear := near_sends aligned.framed
      have clear := (aligned.fits _ oldNear).clear
      rw [if_pos here, here, isNext]
      constructor
      case served => exact fun _ isAdded => nomatch isAdded
      case behind => exact fun _ _ _ _ => request
      case ahead => exact fun isAhead => absurd isAhead (Nat.not_succ_le_self _)
      case clear =>
        intro isRequest dev among toServe
        rw [show (pipe.sent next given).link.devs = pipe.link.devs from sends.devs] at among
        rw [nextMax] at toServe
        have isClear := clear isRequest dev among (by omega)
        rw [← isClear, reading.1]
        exact aligned.maps_sent reading isPending sends.finds oldNear toServe
      case late => exact fun _ isPending => nomatch isPending
    case neg =>
      rw [if_neg here]
      have isOther : place ≠ pipe.sends := by
        rintro rfl
        exact here reading.1.symm
      have oldNear : pipe.Near place := by
        by_cases isLastPlace : place = last
        · rw [isLastPlace]
          apply spec.2
          by_contra notAdded
          rw [← isLastPlace] at notAdded isLast
          exact gone ⟨notAdded, isLast.symm⟩
        · unfold Near at near ⊢
          have more : (pipe.sent next given).sends = pipe.sends + 1 := rfl
          omega
      apply (aligned.fits place oldNear).sent isOther given sends.devs sends.maxDelay
      intro dev _ toServe
      exact aligned.maps_sent reading isPending sends.finds oldNear toServe

theorem Aligned.sent (aligned : pipe.Aligned) (reading : pipe.Reading)
    (isPending : pipe.link.Pending) (sends : pipe.link.Sends ready next) :
    (pipe.sent next ((ready.called .sof).map ready.foundFor)).Aligned := by
  have finds := sends.finds
  set after := pipe.sent next ((ready.called .sof).map ready.foundFor) with isAfter
  have framed : after.link.Framed := aligned.framed.keep sends.toKeepsShape
  have sameMax : after.link.maxDelay = pipe.link.maxDelay := sends.maxDelay
  have sameDevs : after.link.devs = pipe.link.devs := sends.devs
  have oneMore : after.sends = pipe.sends + 1 := rfl
  constructor
  case framed => exact framed
  case quiet =>
    intro pd idx
    show (next.tblSlot pd idx).ops = _
    rw [sends.tblSlot]
    split
    · rfl
    · obtain ⟨map, isMap⟩ := tblSlot_marked ready (ready.called .sof) pd idx
      rw [isMap]
      exact aligned.quiet.congr finds.bare pd idx
  case atSof =>
    rw [sameDevs]
    exact aligned.atSof
  case wrInRing =>
    show next.wrIdx < maxReqSlots
    rw [sends.wrIdx]
    exact aligned.wrInRing
  case skips =>
    intro tbl among
    have isSkip : tbl.skip ∈ next.lTbl.map ReqTbl.skip := mem_map_of_mem among
    rw [sends.skip, finds.skip] at isSkip
    obtain ⟨before, beforeAmong, same⟩ := mem_map.mp isSkip
    have isPd : before.pd = tbl.pd := congrArg Prod.fst same
    have lessSkip : before.skipTraverse - 1 = tbl.skipTraverse := congrArg Prod.snd same
    have skip := aligned.skips before beforeAmong
    omega
  case fits => exact fun place near => aligned.fits_sent reading isPending sends near
  case beyond =>
    intro place far isAhead
    apply aligned.beyond place
    · intro near
      apply far
      unfold Near at near ⊢
      omega
    · omega
  case received => exact aligned.received_sent reading isPending sends

theorem Aligned.done_sent (reading : pipe.Reading) (sends : pipe.link.Sends ready next)
    (given : List (Device × Int)) (framed : pipe.link.Framed) : (pipe.sent next given).Done := by
  refine ⟨pipe.sends, rfl, sends.rdIdx.trans reading.1, .inl ?_⟩
  show (next.slot next.rdIdx).status = .reqApplied
  have notLast := lastServed_ne framed
  rw [sends.rdIdx, sends.slot, if_neg fun last => notLast last.2.symm, if_pos rfl]

/-! ## A trigger -/

/-- The trigger sends nothing, or it sends a request and the request has been applied to all
devices. -/
def Smooth (outcome : Link × List (Device × Int) × Option Int) : Prop :=
  outcome.2.2 = none ∨ Succeeded outcome

instance (outcome : Link × List (Device × Int) × Option Int) : Decidable (Smooth outcome) :=
  inferInstanceAs (Decidable (_ ∨ _))

theorem record_of_none {outcome : Link × List (Device × Int) × Option Int}
    (nothing : outcome.2.2 = none) (given : outcome.2.1 = []) :
    pipe.record outcome = pipe.relink outcome.1 := by
  have fails : ¬Succeeded outcome := by
    rintro ⟨rc, isRc, _⟩
    rw [nothing] at isRc
    cases isRc
  unfold record relink
  rw [if_neg fails, given, append_nil]

variable {answers : Answers}

theorem Aligned.processReq (aligned : pipe.Aligned) (place : pipe.Reading ∨ pipe.Done)
    (smooth : Smooth (pipe.link.processReq .sof answers)) :
    (pipe.record (pipe.link.processReq .sof answers)).Aligned
      ∧ ((pipe.record (pipe.link.processReq .sof answers)).Reading
        ∨ (pipe.record (pipe.link.processReq .sof answers)).Done) := by
  rcases place with reading | done
  case inl =>
    have inRing := rdIdx_lt (.inl reading)
    have notReady : (pipe.link.slot pipe.link.rdIdx).status ≠ .reqReady := by
      rw [reading.1]
      exact ((aligned.fits _ (near_sends aligned.framed)).ahead (Nat.le_refl _)).2
    rcases smooth with nothing | succeeds
    · obtain ⟨given, waits⟩ := processReq_of_none aligned.framed inRing notReady nothing
      rw [record_of_none nothing given]
      obtain ⟨after, still⟩ := aligned.waits reading waits
      exact ⟨after, .inl still⟩
    · have ⟨rc, isRc, isDone, isApplied⟩ := succeeds
      obtain ⟨ready, isPending, sends, given⟩ := processReq_of_succeeds aligned.framed
        aligned.quiet inRing notReady isRc isDone isApplied
      unfold record
      rw [if_pos succeeds, given]
      exact ⟨aligned.sent reading isPending sends,
        .inr (Aligned.done_sent reading sends _ aligned.framed)⟩
  case inr =>
    have quiet : pipe.link.processReq .sof answers = (pipe.link, [], none) := by
      obtain ⟨_, _, _, status⟩ := done
      unfold Link.processReq
      split
      · rfl
      · rcases status with isApplied | isNone
        · rw [prepareReq_of_applied .sof isApplied]
        · rw [prepareReq_of_noReq isNone]
    rw [quiet, record_of_none rfl rfl]
    exact ⟨aligned, .inr done⟩

theorem Aligned.trigger (aligned : pipe.Aligned) (place : pipe.Reading ∨ pipe.Done)
    (spares : pipe.SparesOnTrigger reqId)
    (smooth : Smooth (pipe.link.processTrigger .sof reqId answers)) :
    (pipe.step (.trigger reqId answers)).Aligned
      ∧ ((pipe.step (.trigger reqId answers)).Reading
        ∨ (pipe.step (.trigger reqId answers)).Done) := by
  obtain ⟨advanced, next⟩ := aligned.advance place spares
  have isStep : pipe.step (.trigger reqId answers)
      = pipe.record (pipe.link.processTrigger .sof reqId answers) := rfl
  rw [isStep]
  rcases isNext : pipe.link.advance .sof reqId with ⟨link, reached⟩
  rw [isNext] at advanced next
  cases reached with
  | false =>
    have isOutcome : pipe.link.processTrigger .sof reqId answers = (link, [], none) := by
      unfold processTrigger
      rw [isNext]
    rw [isOutcome, record_of_none rfl rfl]
    exact ⟨advanced, next⟩
  | true =>
    have isOutcome : pipe.link.processTrigger .sof reqId answers
        = link.processReq .sof answers := by
      unfold processTrigger
      rw [isNext]
    rw [isOutcome] at smooth ⊢
    exact advanced.processReq next smooth

/-- When all devices take what has been found for them, the request is applied. -/
theorem Aligned.isApplied (aligned : pipe.Aligned) (reading : pipe.Reading)
    (isPending : pipe.link.Pending) {ready sent : Link} (finds : pipe.link.Finds ready)
    (valid : ∀ dev ∈ pipe.link.devs, -1 ≤ (ready.applyData dev.pDelay).reqId)
    (devs : sent.devs = ready.devs) (applyData : sent.applyData = ready.applyData)
    (lTbl : sent.lTbl = (ready.marked (ready.called .sof)).lTbl) : sent.isApplied := by
  have keeps := finds.toKeepsShape.trans (keeps_marked ready (ready.called .sof)).toKeepsShape
  have framed := aligned.framed.keep keeps
  have readyFramed := aligned.framed.keep finds.toKeepsShape
  have sameSlot : ∀ pd idx, sent.tblSlot pd idx
      = (ready.marked (ready.called .sof)).tblSlot pd idx := by
    intro pd idx
    unfold tblSlot
    rw [lTbl]
  have sameMask : ∀ pd, sent.devMask pd = (ready.marked (ready.called .sof)).devMask pd := by
    intro pd
    unfold devMask
    rw [lTbl]
  apply all_eq_true.mpr
  intro dev devAmong
  rw [devs, finds.devs] at devAmong
  rw [applyData, sameSlot, sameMask, Bool.or_eq_true, decide_eq_true_eq, decide_eq_true_eq]
  by_cases isFound : 0 ≤ (ready.applyData dev.pDelay).reqId
  case neg =>
    have least := valid dev devAmong
    omega
  case pos =>
    right
    obtain ⟨tbl, tblAmong, isPd⟩ := framed.hasTbl dev (by rw [keeps.devs]; exact devAmong)
    apply BitVec.eq_of_getLsbD_eq
    intro nr small
    have marks := applied_marked ready (ready.called .sof) dev.pDelay
      (ready.applyData dev.pDelay).idx nr
    have hasTbl : ready.HasTbl dev.pDelay :=
      readyFramed.hasTbl dev (by rw [finds.devs]; exact devAmong)
    rw [TblSlot.applied_eq] at marks
    rw [Bool.eq_iff_iff, marks, ← isPd, devMask_of_mem framed.chained tblAmong,
      framed.masked tbl tblAmong nr, isPd, keeps.devs]
    have before : ¬(ready.tblSlot dev.pDelay (ready.applyData dev.pDelay).idx).applied nr = true := by
      rw [aligned.clear_found reading isPending finds devAmong isFound]
      exact nofun
    constructor
    · rintro (already | ⟨_, _, _, other, otherCalled, samePd, isBit⟩)
      · exact absurd already before
      · have otherAmong := (mem_filter.mp otherCalled).1
        rw [finds.devs] at otherAmong
        exact ⟨small, other, otherAmong, samePd, isBit⟩
    · rintro ⟨_, other, otherAmong, samePd, isBit⟩
      refine .inr ⟨small, rfl, hasTbl, other, ?_, samePd, isBit⟩
      apply mem_filter.mpr
      rw [finds.devs]
      refine ⟨otherAmong, ?_⟩
      rw [aligned.due_eq reading isPending finds otherAmong, samePd]
      exact decide_eq_true isFound

/-- A trigger succeeds, or sends nothing, when no device refuses a request. -/
theorem Aligned.smooth (aligned : pipe.Aligned) (reading : pipe.Reading)
    (accepts : ∀ dev ∈ pipe.link.devs, 0 ≤ answers dev)
    (valid : ∀ dev ∈ pipe.link.devs, pipe.link.maxDelay - dev.pDelay ≤ pipe.sends → -1 ≤ (pipe.link.slot (pipe.link.readAt dev.pDelay)).reqId)
    : Smooth (pipe.link.processReq .sof answers) := by
  have inRing := rdIdx_lt (.inl reading)
  have notReady : (pipe.link.slot pipe.link.rdIdx).status ≠ .reqReady := by
    rw [reading.1]
    exact ((aligned.fits _ (near_sends aligned.framed)).ahead (Nat.le_refl _)).2
  cases isRc : (pipe.link.processReq .sof answers).2.2 with
  | none => exact .inl isRc
  | some rc =>
    right
    obtain ⟨ready, isPending, finds, sameRc, isOutcome⟩ :=
      processReq_of_some aligned.framed inRing notReady isRc
    have quiet := aligned.quiet.congr finds.bare
    have distinct : Distinct ready.devs := (aligned.framed.keep finds.toKeepsShape).distinct
    have accept : ¬∃ dev ∈ ready.called .sof, answers dev < 0 := by
      rintro ⟨dev, called, refuses⟩
      have among := (mem_filter.mp called).1
      rw [finds.devs] at among
      exact absurd (accepts dev among) (Int.not_le.mpr refuses)
    have isDone : 0 ≤ rc := by
      rw [← sameRc]
      by_contra fails
      exact accept ((sendReq_of_quiet quiet distinct .sof answers).2.1.mp (Int.not_le.mp fails))
    obtain ⟨_, prevApplyData, openReqCnt, state, isMarked⟩ :=
      sendReq_of_accept quiet distinct accept
    refine ⟨rc, isRc, isDone, ?_⟩
    have validFound : ∀ dev ∈ pipe.link.devs, -1 ≤ (ready.applyData dev.pDelay).reqId := by
      intro dev among
      obtain ⟨tbl, tblAmong, isPd⟩ := aligned.framed.hasTbl dev among
      have found := finds.found tbl tblAmong
      have skip := aligned.skips tbl tblAmong
      rw [isPd] at found skip
      rw [found]
      unfold foundAt
      split
      · exact Int.le_refl _
      · exact valid dev among (by omega)
    have all : (ready.sendReq .sof answers).1.recovered.isApplied := by
      rw [isMarked]
      exact aligned.isApplied reading isPending finds validFound rfl rfl rfl
    have sends := sends_concluded aligned.framed finds isMarked
    have isNext : (pipe.link.processReq .sof answers).1
        = (ready.sendReq .sof answers).1.recovered.concluded := by
      rw [isOutcome, finishReq_eq, if_neg (Int.not_lt.mpr isDone), if_pos all]
    have notLast := lastServed_ne aligned.framed
    rw [isNext, sends.rdIdx, sends.slot, if_neg fun last => notLast last.2.symm, if_pos rfl]

/-! ## Requests are scheduled and added -/

/-- A device adds its part of a request without an operation at the end of the frame. -/
theorem Aligned.addReq (aligned : pipe.Aligned) (place : pipe.Reading ∨ pipe.Done)
    {addReq : AddRequest} (noEof : addReq.triggerEof = false) :
    (pipe.step (.addReq addReq)).Aligned
      ∧ ((pipe.step (.addReq addReq)).Reading ∨ (pipe.step (.addReq addReq)).Done) := by
  have isStep : pipe.step (.addReq addReq) = pipe.relink (pipe.link.addReq addReq) := rfl
  rw [isStep]
  have eofEvents : (if addReq.triggerEof then { pipe.link with eofEventCnt := pipe.link.eofEventCnt + 1 }
      else pipe.link) = pipe.link := by
    rw [noEof]
    rfl
  unfold Link.addReq
  split
  · exact ⟨aligned, place⟩
  · rw [eofEvents]
    dsimp only
    unfold processAddReq
    split
    case h_2 => exact ⟨aligned, place⟩
    case h_1 dev idx _ _ =>
      refine ⟨?_, place⟩
      set mask := pipe.link.devMask dev.pDelay
      have kept : ∀ slot : TblSlot, slot.ops = ⟨[], false⟩ →
          (addToSlot addReq slot dev mask).ops = ⟨[], false⟩
            ∧ (addToSlot addReq slot dev mask).reqApplyMap = slot.reqApplyMap := by
        intro slot noOps
        unfold addToSlot
        simp [noEof, noOps]
      apply aligned.relink (keeps_updateTblSlot _ _ _ _).toKeepsShape
      case quiet =>
        intro pd other
        rw [tblSlot_updateTblSlot]
        split
        · exact (kept _ (aligned.quiet _ _)).1
        · exact aligned.quiet pd other
      case wrInRing => exact aligned.wrInRing
      case skip => exact skip_updateTblSlot _ _ _ _
      case fits =>
        intro other near
        have same : maps (pipe.link.updateTblSlot dev.pDelay idx fun slot =>
            addToSlot addReq slot dev mask) (pipe.slotOf other)
            = maps pipe.link (pipe.slotOf other) := by
          funext pd
          unfold maps
          rw [tblSlot_updateTblSlot]
          split
          case isTrue here =>
            rw [here.1, here.2.1]
            exact (kept _ (aligned.quiet _ _)).2
          case isFalse => rfl
        rw [same]
        exact aligned.fits other near

/-- A request that is scheduled gets a slot that is free and that no device knows. -/
def SparesOnSchedule (pipe : Pipeline) (reqId : Int) : Prop :=
  pipe.link.lastFlushId < reqId →
    pipe.Near (pipe.placeOf pipe.link.wrIdx) ∧ pipe.requests (pipe.placeOf pipe.link.wrIdx) = none
      ∧ ∀ dev ∈ pipe.link.devs, maps pipe.link pipe.link.wrIdx dev.pDelay = 0

instance (pipe : Pipeline) (reqId : Int) : Decidable (pipe.SparesOnSchedule reqId) :=
  inferInstanceAs (Decidable (_ → _ ∧ _ ∧ ∀ _ ∈ _, _))

theorem sends_le_placeOf (pipe : Pipeline) (idx : Nat) : pipe.sends ≤ pipe.placeOf idx :=
  Nat.le_add_right _ _

theorem slotOf_placeOf (pipe : Pipeline) {idx : Nat} (inRing : idx < maxReqSlots) :
    pipe.slotOf (pipe.placeOf idx) = idx := by
  unfold placeOf slotOf incIdx maxReqSlots at *
  omega

/-- The link has got the request of a place that had none. -/
theorem Aligned.scheduled (aligned : pipe.Aligned) (link : Link) {place : Nat}
    (near : pipe.Near place) (isAhead : pipe.sends ≤ place)
    (clear : ∀ dev ∈ pipe.link.devs, maps pipe.link (pipe.slotOf place) dev.pDelay = 0)
    (devs : link.devs = pipe.link.devs) (maxDelay : link.maxDelay = pipe.link.maxDelay)
    (lTbl : link.lTbl = pipe.link.lTbl) (wrInRing : link.wrIdx < maxReqSlots)
    (elsewhere : ∀ idx, idx ≠ pipe.slotOf place → link.slot idx = pipe.link.slot idx)
    (isAdded : (link.slot (pipe.slotOf place)).status = .reqAdded) :
    { pipe with
      link := link
      requests := update pipe.requests place (link.slot (pipe.slotOf place)).request }.Aligned := by
  have sameTblSlot : ∀ pd idx, link.tblSlot pd idx = pipe.link.tblSlot pd idx := by
    intro pd idx
    unfold tblSlot
    rw [lTbl]
  have sameMaps : ∀ idx, maps link idx = maps pipe.link idx := by
    intro idx
    funext pd
    exact congrArg TblSlot.reqApplyMap (sameTblSlot pd idx)
  have others : ∀ other, other ≠ place →
      update pipe.requests place (link.slot (pipe.slotOf place)).request other
        = pipe.requests other := fun other isOther => update_of_ne isOther _ _
  have sameNear : ∀ other, ({ pipe with
      link := link
      requests := update pipe.requests place
        (link.slot (pipe.slotOf place)).request } : Pipeline).Near other ↔ pipe.Near other := by
    intro other
    unfold Near
    rw [maxDelay]
  constructor
  case framed =>
    have framed := aligned.framed
    exact
      { chained := lTbl ▸ framed.chained
        first := by
          rw [lTbl, maxDelay]
          exact framed.first
        hasTbl := by
          unfold HasTbl
          rw [devs, lTbl]
          exact framed.hasTbl
        distinct := devs ▸ framed.distinct
        masked := by
          unfold Masked
          rw [devs, lTbl]
          exact framed.masked
        delayValid := maxDelay ▸ framed.delayValid }
  case quiet => exact fun pd idx => (congrArg TblSlot.ops (sameTblSlot pd idx)).trans (aligned.quiet pd idx)
  case atSof => exact devs ▸ aligned.atSof
  case wrInRing => exact wrInRing
  case skips =>
    rw [lTbl, maxDelay]
    exact aligned.skips
  case fits =>
    intro other otherNear
    rw [sameNear] at otherNear
    have before := aligned.fits other otherNear
    show Pipeline.Fits _ other (link.slot (pipe.slotOf other)) (maps link (pipe.slotOf other))
    rw [sameMaps]
    by_cases isPlace : other = place
    · have isRequest : update pipe.requests place (link.slot (pipe.slotOf place)).request other
          = (link.slot (pipe.slotOf place)).request := by
        rw [isPlace]
        exact update_self _ _ _
      constructor
      case served => exact fun isBefore => absurd isBefore (by dsimp only; omega)
      case behind => exact fun isBefore => absurd isBefore (by dsimp only; omega)
      case ahead =>
        intro _
        dsimp only
        rw [isRequest, isPlace, Slot.awaited_of_status, isAdded]
        · exact ⟨rfl, nofun⟩
        · rw [isAdded]
          exact nofun
        · rw [isAdded]
          exact nofun
      case clear =>
        rw [devs, isPlace]
        exact fun _ dev among _ => clear dev among
      case late =>
        rw [isPlace, isAdded]
        exact fun _ => nofun
    · have apart : pipe.slotOf other ≠ pipe.slotOf place :=
        fun same => isPlace (slotOf_injective otherNear near same)
      rw [elsewhere _ apart]
      constructor
      case served => exact before.served
      case behind =>
        dsimp only
        rw [devs, maxDelay, others other isPlace]
        exact before.behind
      case ahead =>
        dsimp only
        rw [others other isPlace]
        exact before.ahead
      case clear =>
        dsimp only
        rw [devs, maxDelay, others other isPlace]
        exact before.clear
      case late =>
        dsimp only
        rw [maxDelay, others other isPlace]
        exact before.late
  case beyond =>
    intro other far
    rw [sameNear] at far
    have isOther : other ≠ place := by
      rintro rfl
      exact far near
    dsimp only
    rw [others other isOther]
    exact aligned.beyond other far
  case received =>
    intro dev among
    rw [devs] at among
    refine (aligned.received dev among).trans ?_
    unfold servedUpTo
    rw [maxDelay]
    apply filterMap_congr
    intro other otherAmong
    have isOther : other ≠ place := by
      have small := mem_range.mp otherAmong
      omega
    exact (others other isOther).symm

theorem Aligned.scheduleRequest (aligned : pipe.Aligned) (place : pipe.Reading ∨ pipe.Done)
    {reqId : Int} (bubbleEnable : Bool) (spares : pipe.SparesOnSchedule reqId) :
    (pipe.step (.scheduleRequest reqId bubbleEnable)).Aligned
      ∧ ((pipe.step (.scheduleRequest reqId bubbleEnable)).Reading
        ∨ (pipe.step (.scheduleRequest reqId bubbleEnable)).Done) := by
  by_cases isOld : reqId ≤ pipe.link.lastFlushId
  · have isStep : pipe.step (.scheduleRequest reqId bubbleEnable) = pipe := by
      unfold step Link.scheduleRequest
      dsimp only
      rw [if_pos isOld]
    rw [isStep]
    exact ⟨aligned, place⟩
  · set link := ({ pipe.link with lastFlushId := 0 } : Link).processSchedReq reqId bubbleEnable
      with isLink
    have isStep : pipe.step (.scheduleRequest reqId bubbleEnable) =
        { pipe with
          link := link
          requests := update pipe.requests (pipe.placeOf pipe.link.wrIdx)
            (link.slot pipe.link.wrIdx).request } := by
      unfold step Link.scheduleRequest
      dsimp only
      rw [if_neg isOld]
    rw [isStep]
    obtain ⟨near, _, clear⟩ := spares (Int.not_le.mp isOld)
    have isSlot := slotOf_placeOf pipe aligned.wrInRing
    have atWrite : link.slot pipe.link.wrIdx = ⟨reqId, false, .reqAdded, bubbleEnable⟩ :=
      update_self _ _ _
    have elsewhere : ∀ idx, idx ≠ pipe.link.wrIdx → link.slot idx = pipe.link.slot idx :=
      fun idx isOther => update_of_ne isOther _ _
    constructor
    case left =>
      have after := aligned.scheduled link near (sends_le_placeOf pipe _)
        (by rw [isSlot]; exact clear) rfl rfl rfl (incIdx_lt _ _) (by rw [isSlot]; exact elsewhere)
        (by rw [isSlot, atWrite])
      rw [isSlot] at after
      exact after
    case right =>
      rcases place with reading | ⟨before, isBefore, isRead, status⟩
      · refine .inl ⟨reading.1, ?_⟩
        show (link.slot pipe.link.rdIdx).status ≠ .reqApplied
        by_cases here : pipe.link.rdIdx = pipe.link.wrIdx
        · rw [here, atWrite]
          exact nofun
        · rw [elsewhere _ here]
          exact reading.2
      · refine .inr ⟨before, isBefore, isRead, ?_⟩
        have small := aligned.framed.delayValid
        have beforeNear : pipe.Near before := by
          unfold Near camPipelineDelayMax maxReqSlots at *
          omega
        have apart : pipe.link.rdIdx ≠ pipe.link.wrIdx := by
          intro same
          rw [← isSlot, isRead] at same
          have isPlace := slotOf_injective beforeNear near same
          have ahead := sends_le_placeOf pipe pipe.link.wrIdx
          omega
        show (link.slot pipe.link.rdIdx).status = _ ∨ (link.slot pipe.link.rdIdx).status = _
        rw [elsewhere _ apart]
        exact status

end Pipeline

end Sm8650.Crm
