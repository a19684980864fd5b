import Mathlib.Data.List.TakeWhile
import Sm8650.Crm.Setup
import Sm8650.Transition.Reach

/-!
# The counter of open requests

A request is open from when it is scheduled until it is cancelled or flushed, or until all devices
of the smallest pipeline delay of the link have it. The link counts a request down when a send in
which no device fails has called such a device, whether it was the last one or not.
-/

namespace Sm8650.Crm

open Transition List Link

namespace Link

/-- The link for which a trigger calls `__cam_req_mgr_send_req`, if it does. -/
def sending (link : Link) (trigger : Trigger) (reqId : Int) : Option Link :=
  match link.advance trigger reqId with
  | (_, false) => none
  | (link, true) =>
    if link.state = .idle then none
    else
      match link.prepareReq trigger with
      | (_, false) => none
      | (link, true) => some link

variable {link ready : Link} {trigger : Trigger} {reqId : Int}

/-- A trigger that sends nothing gives nothing to a device. -/
theorem processTrigger_of_none (answers : Answers) (quiet : link.sending trigger reqId = none) :
    ∃ next, link.processTrigger trigger reqId answers = (next, [], none) ∧ link.Keeps next := by
  have advanced := keeps_advance link trigger reqId
  unfold sending at quiet
  unfold processTrigger
  rcases isNext : link.advance trigger reqId with ⟨next, reached⟩
  rw [isNext] at advanced quiet
  cases reached with
  | false => exact ⟨next, rfl, advanced⟩
  | true =>
    dsimp only at quiet ⊢
    unfold processReq
    by_cases idle : next.state = .idle
    · exact ⟨next, if_pos idle, advanced⟩
    · rw [if_neg idle] at quiet ⊢
      have prepared := keeps_prepareReq next trigger
      rcases isLast : next.prepareReq trigger with ⟨last, found⟩
      rw [isLast] at prepared quiet
      cases found with
      | false => exact ⟨last, rfl, advanced.trans prepared⟩
      | true => cases quiet

theorem processTrigger_of_some (answers : Answers) (sends : link.sending trigger reqId = some ready) :
    link.processTrigger trigger reqId answers
      = ((ready.sendReq trigger answers).1.finishReq (ready.sendReq trigger answers).2.2,
        (ready.sendReq trigger answers).2.1, some (ready.sendReq trigger answers).2.2)
      ∧ link.Keeps ready := by
  have advanced := keeps_advance link trigger reqId
  unfold sending at sends
  unfold processTrigger
  rcases isNext : link.advance trigger reqId with ⟨next, reached⟩
  rw [isNext] at advanced sends
  cases reached with
  | false => cases sends
  | true =>
    dsimp only at sends ⊢
    unfold processReq
    by_cases idle : next.state = .idle
    · rw [if_pos idle] at sends
      cases sends
    · rw [if_neg idle] at sends ⊢
      have prepared := keeps_prepareReq next trigger
      rcases isLast : next.prepareReq trigger with ⟨last, found⟩
      rw [isLast] at prepared sends
      cases found with
      | false => cases sends
      | true =>
        cases sends
        exact ⟨rfl, advanced.trans prepared⟩

end Link

/-- A link, and what has happened to requests on it. -/
structure OpenSystem where
  link : Link
  scheduled : List Int
  gone : List Int
  given : List (Device × Int)

/-- The operations on a link. -/
inductive LinkOperation
  | scheduleRequest (reqId : Int) (bubbleEnable : Bool)
  | addReq (addReq : AddRequest)
  | trigger (trigger : Trigger) (reqId : Int) (answers : Answers)
  | cancelReq (reqId : Int)
  | flushAll (reqId : Int)

namespace OpenSystem

/-- Some device of the smallest pipeline delay does not have the request. -/
def Lacking (system : OpenSystem) (given : List (Device × Int)) (reqId : Int) : Prop :=
  ∃ dev ∈ system.link.devs, dev.pDelay = system.link.minDelay ∧ (dev, reqId) ∉ given

/-- All devices of the smallest pipeline delay have the request. -/
def Served (system : OpenSystem) (given : List (Device × Int)) (reqId : Int) : Prop :=
  (∃ dev ∈ system.link.devs, dev.pDelay = system.link.minDelay) ∧ ¬system.Lacking given reqId

instance (system : OpenSystem) (given : List (Device × Int)) (reqId : Int) :
    Decidable (system.Lacking given reqId) :=
  inferInstanceAs (Decidable (∃ dev ∈ system.link.devs, _))

instance (system : OpenSystem) (given : List (Device × Int)) (reqId : Int) :
    Decidable (system.Served given reqId) :=
  inferInstanceAs (Decidable (_ ∧ _))

/-- The scheduled requests that are neither cancelled or flushed nor applied to all devices of the
smallest pipeline delay. -/
def openReqs (system : OpenSystem) : List Int :=
  system.scheduled.filter fun reqId =>
    reqId ∉ system.gone ∧ ¬system.Served system.given reqId

/-- The counter of the link is the number of open requests. -/
def CountsOpenReqs (system : OpenSystem) : Prop :=
  system.link.openReqCnt.toNat = system.openReqs.length

/-- One operation. -/
def step (system : OpenSystem) : LinkOperation → OpenSystem
  | .scheduleRequest reqId bubbleEnable =>
    match system.link.scheduleRequest reqId bubbleEnable with
    | (link, true) => { system with link := link, scheduled := reqId :: system.scheduled }
    | (link, false) => { system with link := link }
  | .addReq addReq => { system with link := system.link.addReq addReq }
  | .trigger trigger reqId answers =>
    match system.link.processTrigger trigger reqId answers with
    | (link, given, _) => { system with link := link, given := system.given ++ given }
  | .cancelReq reqId =>
    match system.link.cancelReq reqId with
    | (link, true) => { system with link := link, gone := reqId :: system.gone }
    | (link, false) => { system with link := link }
  | .flushAll reqId =>
    { system with link := system.link.flushAll reqId, gone := system.scheduled ++ system.gone }

/-- A link that has been set up. -/
def new (infos : List DeviceInfo) : OpenSystem := ⟨setup infos, [], [], []⟩

/-- A request is scheduled that has not been used before. -/
def Fresh (system : OpenSystem) : LinkOperation → Prop
  | .scheduleRequest reqId _ => reqId ∉ system.scheduled ∧ ∀ pair ∈ system.given, pair.2 ≠ reqId
  | _ => True

instance (system : OpenSystem) (operation : LinkOperation) : Decidable (system.Fresh operation) :=
  match operation with
  | .scheduleRequest _ _ => inferInstanceAs (Decidable (_ ∧ _))
  | .addReq _ | .trigger _ _ _ | .cancelReq _ | .flushAll _ => inferInstanceAs (Decidable True)

/-- A send on the link, after what the devices have been given before, leaves the counter right:
when it serves a device of the smallest delay in its regular loop and no device fails, it serves
all of those that lack an open request, and otherwise it does not serve the last of them. -/
def SendFits (system : OpenSystem) (link : Link) (trigger : Trigger) (answers : Answers) :
    Prop :=
  let reqId := (link.applyData link.minDelay).reqId
  let (next, special, ended) := sendSpecial trigger answers link link.devs
  let called := next.called trigger
  if ended ≠ .next then reqId ∈ system.openReqs → system.Lacking (system.given ++ special) reqId
  else if ∃ dev ∈ called, answers dev < 0 then
    reqId ∈ system.openReqs →
      system.Lacking (system.given ++ special ++
        (called.takeWhile fun dev => 0 ≤ answers dev).map next.foundFor) reqId
  else if ∃ dev ∈ called, dev.pDelay = link.minDelay then
    reqId ≠ 0 ∧ reqId ∈ system.openReqs
      ∧ ∀ dev ∈ link.devs, dev.pDelay = link.minDelay →
        (dev, reqId) ∈ system.given ++ special ∨ dev ∈ called
  else reqId ∈ system.openReqs → system.Lacking (system.given ++ special) reqId

instance (system : OpenSystem) (link : Link) (trigger : Trigger) (answers : Answers) :
    Decidable (system.SendFits link trigger answers) :=
  inferInstanceAs (Decidable (ite _ _ _))

/-- The counter does not overflow, only open requests are cancelled, and every send fits. -/
def CountsOn (system : OpenSystem) : LinkOperation → Prop
  | .scheduleRequest _ _ => system.openReqs.length + 1 < 2 ^ 32
  | .addReq _ => True
  | .trigger trigger reqId answers =>
    ∀ link ∈ system.link.sending trigger reqId, system.SendFits link trigger answers
  | .cancelReq reqId =>
    ∀ idx ∈ system.link.findSlotForReq reqId, system.link.cancellable reqId idx →
      reqId ∈ system.openReqs
  | .flushAll _ => True

instance (system : OpenSystem) (operation : LinkOperation) :
    Decidable (system.CountsOn operation) :=
  match operation with
  | .scheduleRequest _ _ => inferInstanceAs (Decidable (_ < _))
  | .trigger _ _ _ => inferInstanceAs (Decidable (∀ _ ∈ _, _))
  | .cancelReq _ => inferInstanceAs (Decidable (∀ _ ∈ _, _ → _))
  | .addReq _ | .flushAll _ => inferInstanceAs (Decidable True)

/-! ## What is given to devices -/

variable {system : OpenSystem} {given : List (Device × Int)} {reqId other : Int}

/-- Devices of the smallest delay are given this request only. -/
def OnlyMin (system : OpenSystem) (given : List (Device × Int)) (reqId : Int) : Prop :=
  ∀ pair ∈ given, pair.1.pDelay = system.link.minDelay → pair.2 = reqId

theorem lacking_append (more : List (Device × Int))
    (lacking : system.Lacking (given ++ more) reqId) : system.Lacking given reqId := by
  obtain ⟨dev, among, isMin, hasNot⟩ := lacking
  exact ⟨dev, among, isMin, fun has => hasNot (mem_append_left _ has)⟩

/-- Another request than the one that is given is not affected. -/
theorem lacking_append_iff {before : List (Device × Int)} (only : system.OnlyMin given reqId)
    (isOther : other ≠ reqId) :
    system.Lacking (before ++ given) other ↔ system.Lacking before other := by
  constructor
  · exact lacking_append given
  · rintro ⟨dev, among, isMin, hasNot⟩
    refine ⟨dev, among, isMin, ?_⟩
    intro has
    rcases mem_append.mp has with already | now
    · exact hasNot already
    · exact isOther (only _ now isMin)

theorem Served.append {before : List (Device × Int)} (served : system.Served before reqId)
    (given : List (Device × Int)) : system.Served (before ++ given) reqId :=
  ⟨served.1, fun lacking => served.2 (lacking_append given lacking)⟩

theorem served_congr (next : OpenSystem) (devs : next.link.devs = system.link.devs)
    (minDelay : next.link.minDelay = system.link.minDelay) :
    next.Served given reqId ↔ system.Served given reqId := by
  unfold Served Lacking
  rw [devs, minDelay]

/-- The open requests stay, but for the one that the devices have got, if they all have it. -/
theorem openReqs_append (next : OpenSystem) (only : system.OnlyMin given reqId)
    (devs : next.link.devs = system.link.devs) (minDelay : next.link.minDelay = system.link.minDelay)
    (scheduled : next.scheduled = system.scheduled) (gone : next.gone = system.gone)
    (isGiven : next.given = system.given ++ given) :
    next.openReqs = system.openReqs.filter fun other =>
      other ≠ reqId ∨ ¬system.Served (system.given ++ given) reqId := by
  have served : ∀ id, next.Served next.given id ↔ system.Served (system.given ++ given) id := by
    intro id
    rw [isGiven]
    exact served_congr next devs minDelay
  unfold openReqs
  rw [filter_filter, scheduled, gone]
  apply filter_congr
  intro id _
  rw [Bool.eq_iff_iff]
  simp only [served, Bool.and_eq_true, decide_eq_true_eq]
  by_cases isReq : id = reqId
  · subst isReq
    constructor
    · rintro ⟨notGone, notServed⟩
      exact ⟨.inr notServed, notGone, fun before => notServed (before.append given)⟩
    · rintro ⟨here | notServed, notGone, _⟩
      · exact absurd rfl here
      · exact ⟨notGone, notServed⟩
  · have same : system.Served (system.given ++ given) id ↔ system.Served system.given id := by
      unfold Served
      rw [lacking_append_iff only isReq]
    rw [same]
    simp [isReq]

/-- A request that is cancelled is no longer open. -/
theorem openReqs_gone {next : OpenSystem} (devs : next.link.devs = system.link.devs)
    (minDelay : next.link.minDelay = system.link.minDelay)
    (scheduled : next.scheduled = system.scheduled) (gone : next.gone = reqId :: system.gone)
    (given : next.given = system.given) :
    next.openReqs = system.openReqs.filter fun id => id ≠ reqId := by
  unfold openReqs
  rw [filter_filter, scheduled, gone, given]
  apply filter_congr
  intro id _
  rw [Bool.eq_iff_iff]
  simp [served_congr next devs minDelay, and_assoc]

theorem nodup_openReqs (nodup : system.scheduled.Nodup) : system.openReqs.Nodup :=
  nodup.filter _

/-- What a send does to the counter. -/
structure Settled (system : OpenSystem) (before after : BitVec 32) (given : List (Device × Int))
    (reqId : Int) : Prop where
  only : system.OnlyMin given reqId
  counts : after = before ∧ (reqId ∈ system.openReqs → system.Lacking (system.given ++ given) reqId)
    ∨ after = before - 1 ∧ reqId ∈ system.openReqs ∧ system.Served (system.given ++ given) reqId

theorem onlyMin_foundFor {link : Link} (minDelay : system.link.minDelay = link.minDelay)
    (found : ∀ pair ∈ given, pair = link.foundFor pair.1) :
    system.OnlyMin given (link.applyData link.minDelay).reqId := by
  intro pair among isMin
  rw [minDelay] at isMin
  rw [found pair among, foundFor, isMin]

theorem due_nonneg {link : Link} {trigger : Trigger} {dev : Device} (due : link.due trigger dev) :
    0 ≤ (link.applyData dev.pDelay).reqId := by
  unfold Link.due at due
  simp only [Bool.and_eq_true, decide_eq_true_eq] at due
  exact due.1.1.2

/-- A send that fits settles the request of the smallest delay. -/
theorem SendFits.settled {ready : Link} {trigger : Trigger} {answers : Answers}
    (fits : system.SendFits ready trigger answers) (keeps : system.link.Keeps ready)
    (distinct : Distinct system.link.devs) :
    system.Settled ready.openReqCnt (ready.sendReq trigger answers).1.openReqCnt
      (ready.sendReq trigger answers).2.1 (ready.applyData ready.minDelay).reqId := by
  have special := keeps_sendSpecial trigger answers ready ready.devs
  have sameData := applyData_sendSpecial trigger answers ready ready.devs
  have found := sendSpecial_given trigger answers ready ready.devs
  unfold SendFits at fits
  dsimp only at fits
  unfold sendReq
  rcases isSpecial : sendSpecial trigger answers ready ready.devs with ⟨next, given, ended⟩
  rw [isSpecial] at special sameData found fits
  have only : system.OnlyMin given (ready.applyData ready.minDelay).reqId :=
    onlyMin_foundFor keeps.minDelay.symm found
  dsimp only at fits
  cases ended with
  | failed rc =>
    exact ⟨only, .inl ⟨special.openReqCnt, fits⟩⟩
  | sent =>
    rw [if_pos (by simp)] at fits
    exact ⟨only, .inl ⟨special.openReqCnt, fits⟩⟩
  | next =>
    rw [if_neg (by simp)] at fits
    dsimp only
    have nextDistinct : Distinct next.devs := by
      rw [special.devs, keeps.devs]
      exact distinct
    set sent := sendRegular trigger answers next.devs ⟨next, given, -1, 0⟩ with isSent
    have regular : next.Keeps sent.link :=
      keeps_sendRegular trigger answers next.devs ⟨next, given, -1, 0⟩
    have sentGiven := sendRegular_given trigger answers nextDistinct ⟨next, given, -1, 0⟩
    have sentRc := sendRegular_rc trigger answers nextDistinct ⟨next, given, -1, 0⟩
      (Int.le_refl 0)
    have sentMin := sendRegular_reqAppliedToMinPd trigger answers nextDistinct
      ⟨next, given, -1, 0⟩
    dsimp only at sentGiven sentRc sentMin
    have isCalled : next.devs.filter (next.due trigger) = next.called trigger := rfl
    rw [isCalled] at sentGiven sentRc sentMin
    rw [sameData, special.minDelay] at sentMin
    have onlyAll : system.OnlyMin sent.given (ready.applyData ready.minDelay).reqId := by
      apply onlyMin_foundFor keeps.minDelay.symm
      intro pair among
      rw [sentGiven] at among
      rcases mem_append.mp among with before | now
      · exact found pair before
      · obtain ⟨dev, _, rfl⟩ := mem_map.mp now
        unfold foundFor
        rw [sameData]
    have sameCount : sent.link.openReqCnt = ready.openReqCnt :=
      regular.openReqCnt.trans special.openReqCnt
    split
    case isTrue fails =>
      rw [if_pos (sentRc.mp fails)] at fits
      refine ⟨onlyAll, .inl ⟨sameCount, fun isOpen => ?_⟩⟩
      rw [sentGiven, ← append_assoc]
      exact fits isOpen
    case isFalse succeeds =>
      have all : ∀ dev ∈ next.called trigger, 0 ≤ answers dev := by
        intro dev among
        by_contra refuses
        exact succeeds (sentRc.mpr ⟨dev, among, Int.not_le.mp refuses⟩)
      have takers : (next.called trigger).takeWhile (fun dev => decide (0 ≤ answers dev))
          = next.called trigger :=
        takeWhile_eq_self_iff.mpr fun dev among => decide_eq_true (all dev among)
      rw [takers] at sentGiven sentMin
      rw [if_neg fun fails => succeeds (sentRc.mpr fails)] at fits
      by_cases serves : ∃ dev ∈ next.called trigger, dev.pDelay = ready.minDelay
      · rw [if_pos serves] at fits sentMin
        obtain ⟨notZero, isOpen, reached⟩ := fits
        obtain ⟨dev, among, isMin⟩ := serves
        obtain ⟨devAmong, due⟩ := mem_filter.mp among
        have nonneg := due_nonneg due
        rw [sameData, isMin] at nonneg
        have positive : 0 < sent.reqAppliedToMinPd := by
          rw [sentMin]
          exact lt_of_le_of_ne nonneg notZero.symm
        rw [if_pos positive]
        refine ⟨onlyAll, .inr ⟨congrArg (· - 1) sameCount, isOpen, ⟨dev, ?_, ?_⟩, ?_⟩⟩
        · rw [← keeps.devs, ← special.devs]
          exact devAmong
        · rw [← keeps.minDelay]
          exact isMin
        · rintro ⟨last, lastAmong, lastMin, hasNot⟩
          rw [← keeps.devs] at lastAmong
          rw [← keeps.minDelay] at lastMin
          apply hasNot
          rw [sentGiven, ← append_assoc]
          rcases reached last lastAmong lastMin with before | now
          · exact mem_append_left _ before
          · apply mem_append_right
            refine mem_map.mpr ⟨last, now, ?_⟩
            rw [foundFor, sameData, lastMin]
      · rw [if_neg serves] at fits sentMin
        rw [if_neg (by rw [sentMin]; decide)]
        refine ⟨onlyAll, .inl ⟨sameCount, fun isOpen => ?_⟩⟩
        obtain ⟨dev, among, isMin, hasNot⟩ := fits isOpen
        refine ⟨dev, among, isMin, ?_⟩
        rw [sentGiven, ← append_assoc]
        intro has
        rcases mem_append.mp has with before | now
        · exact hasNot before
        · obtain ⟨taker, takes, isPair⟩ := mem_map.mp now
          have isDev : taker = dev := congrArg Prod.fst isPair
          rw [isDev] at takes
          exact serves ⟨dev, takes, isMin.trans keeps.minDelay.symm⟩

/-! ## The counter -/

/-- What holds between the operations. -/
structure Sound (system : OpenSystem) : Prop where
  distinct : Distinct system.link.devs
  nodup : system.scheduled.Nodup
  gone : ∀ id ∈ system.gone, id ∈ system.scheduled
  counts : system.CountsOpenReqs

theorem sound_new (infos : List DeviceInfo) : (new infos).Sound where
  distinct := distinct_setup infos
  nodup := nodup_nil
  gone _ among := absurd among not_mem_nil
  counts := by
    have counter : ∀ (link : Link), (infos.foldl connect link).openReqCnt = link.openReqCnt := by
      intro link
      induction infos generalizing link with
      | nil => rfl
      | cons info rest ih => exact ih (link.connect info)
    show ((infos.foldl connect reserved).openReqCnt).toNat = 0
    rw [counter]
    rfl

/-- Nothing that matters for the open requests changes. -/
theorem Sound.keep (sound : system.Sound) {link : Link} (devs : link.devs = system.link.devs)
    (minDelay : link.minDelay = system.link.minDelay)
    (openReqCnt : link.openReqCnt = system.link.openReqCnt) :
    { system with link := link }.Sound where
  distinct := by
    rw [devs]
    exact sound.distinct
  nodup := sound.nodup
  gone := sound.gone
  counts := by
    have same : { system with link := link }.openReqs = system.openReqs := by
      apply filter_congr
      intro id _
      simp only [served_congr { system with link := link } devs minDelay]
    unfold CountsOpenReqs
    rw [same, openReqCnt]
    exact sound.counts

theorem Sound.scheduleRequest (sound : system.Sound) {bubbleEnable : Bool}
    (isNew : reqId ∉ system.scheduled) (unused : ∀ pair ∈ system.given, pair.2 ≠ reqId)
    (room : system.openReqs.length + 1 < 2 ^ 32) :
    (system.step (.scheduleRequest reqId bubbleEnable)).Sound := by
  unfold step Link.scheduleRequest
  dsimp only
  split
  case h_2 link isLink =>
    split at isLink
    · cases isLink
      exact sound.keep rfl rfl rfl
    · cases isLink
  case h_1 link isLink =>
    split at isLink
    · cases isLink
    · cases isLink
      constructor
      case distinct => exact sound.distinct
      case nodup => exact nodup_cons.mpr ⟨isNew, sound.nodup⟩
      case gone => exact fun id among => mem_cons_of_mem _ (sound.gone id among)
      case counts =>
        have notGone : reqId ∉ system.gone := fun among => isNew (sound.gone reqId among)
        have notServed : ¬system.Served system.given reqId := by
          rintro ⟨⟨dev, among, isMin⟩, none⟩
          exact none ⟨dev, among, isMin, fun has => unused _ has rfl⟩
        set link := { system.link with lastFlushId := 0 }.processSchedReq reqId bubbleEnable
        have more : { system with link := link, scheduled := reqId :: system.scheduled }.openReqs
            = reqId :: system.openReqs :=
          filter_cons_of_pos (decide_eq_true ⟨notGone, notServed⟩)
        have before := sound.counts
        unfold CountsOpenReqs at before ⊢
        show (system.link.openReqCnt + 1).toNat = _
        rw [more, BitVec.toNat_add, before, length_cons]
        exact Nat.mod_eq_of_lt room

theorem length_filter_ne {ids : List Int} (nodup : ids.Nodup) (among : reqId ∈ ids) :
    (ids.filter fun id => id ≠ reqId).length = ids.length - 1 := by
  have isErase : (ids.filter fun id => id ≠ reqId) = ids.erase reqId := by
    rw [nodup.erase_eq_filter]
    simp [bne, Bool.beq_eq_decide_eq]
  rw [isErase, length_erase_of_mem among]

section

variable (sound : system.Sound)

include sound

/-- One request less is open, and the counter is one less. -/
theorem counts_pred {next : OpenSystem} (isOpen : reqId ∈ system.openReqs)
    (openReqs : next.openReqs = system.openReqs.filter fun id => id ≠ reqId)
    (openReqCnt : next.link.openReqCnt = system.link.openReqCnt - 1) : next.CountsOpenReqs := by
  have before := sound.counts
  unfold CountsOpenReqs at before ⊢
  have positive : 0 < system.openReqs.length := length_pos_of_mem isOpen
  rw [openReqCnt, openReqs, length_filter_ne (nodup_openReqs sound.nodup) isOpen, ← before]
  rw [BitVec.toNat_sub_of_le]
  · rfl
  · rw [BitVec.le_def, before]
    exact positive

theorem Sound.cancelReq
    (fits : system.CountsOn (.cancelReq reqId)) : (system.step (.cancelReq reqId)).Sound := by
  unfold step Link.cancelReq Link.tryCancelReq
  dsimp only
  have sameSlot : { system.link with lastFlushId := reqId }.findSlotForReq reqId
      = system.link.findSlotForReq reqId := rfl
  rw [sameSlot]
  cases found : system.link.findSlotForReq reqId with
  | none => exact sound.keep rfl rfl rfl
  | some idx =>
    dsimp only
    have sameRule : { system.link with lastFlushId := reqId }.cancellable reqId idx
        = system.link.cancellable reqId idx := rfl
    rw [sameRule]
    cases rule : system.link.cancellable reqId idx with
    | false => exact sound.keep rfl rfl rfl
    | true =>
      have isOpen := fits idx (by rw [found]; rfl) rule
      constructor
      case distinct => exact sound.distinct
      case nodup => exact sound.nodup
      case gone =>
        intro id among
        rcases mem_cons.mp among with rfl | before
        · exact (mem_filter.mp isOpen).1
        · exact sound.gone id before
      case counts =>
        apply counts_pred sound isOpen _ rfl
        exact openReqs_gone rfl rfl rfl rfl rfl

theorem Sound.flushAll (reqId : Int) : (system.step (.flushAll reqId)).Sound where
  distinct := sound.distinct
  nodup := sound.nodup
  gone id among := by
    rcases mem_append.mp among with now | before
    · exact now
    · exact sound.gone id before
  counts := by
    have none : (system.step (.flushAll reqId)).openReqs = [] := by
      apply filter_eq_nil_iff.mpr
      intro id among isOpen
      have notGone := (of_decide_eq_true isOpen).1
      exact notGone (mem_append_left _ among)
    unfold CountsOpenReqs
    rw [none]
    rfl

theorem Sound.addReq (addReq : AddRequest) : (system.step (.addReq addReq)).Sound := by
  have keeps := keeps_addReq system.link addReq
  exact sound.keep keeps.devs keeps.minDelay keeps.openReqCnt

theorem Sound.trigger {trigger : Trigger} {answers : Answers}
    (fits : system.CountsOn (.trigger trigger reqId answers)) :
    (system.step (.trigger trigger reqId answers)).Sound := by
  unfold step
  dsimp only
  cases sends : system.link.sending trigger reqId with
  | none =>
    obtain ⟨next, isNext, keeps⟩ := processTrigger_of_none answers sends
    rw [isNext]
    dsimp only
    rw [append_nil]
    exact sound.keep keeps.devs keeps.minDelay keeps.openReqCnt
  | some ready =>
    obtain ⟨isNext, prepared⟩ := processTrigger_of_some answers sends
    rw [isNext]
    dsimp only
    have settled := (fits ready sends).settled prepared sound.distinct
    have sent := keepsShape_sendReq ready trigger answers
    have finished := keeps_finishReq (ready.sendReq trigger answers).1
      (ready.sendReq trigger answers).2.2
    have keeps := (prepared.toKeepsShape.trans sent).trans finished.toKeepsShape
    set link := (ready.sendReq trigger answers).1.finishReq (ready.sendReq trigger answers).2.2
    set given := (ready.sendReq trigger answers).2.1
    set id := (ready.applyData ready.minDelay).reqId
    have openReqs := openReqs_append { system with link := link, given := system.given ++ given }
      settled.only keeps.devs keeps.minDelay rfl rfl rfl
    refine ⟨?_, sound.nodup, sound.gone, ?_⟩
    · show Distinct link.devs
      rw [keeps.devs]
      exact sound.distinct
    · have before := sound.counts
      rcases settled.counts with ⟨same, lacks⟩ | ⟨less, isOpen, served⟩
      · have all : system.openReqs.filter (fun other =>
            other ≠ id ∨ ¬system.Served (system.given ++ given) id) = system.openReqs := by
          apply filter_eq_self.mpr
          intro other among
          by_cases isId : other = id
          · subst isId
            exact decide_eq_true (.inr fun served => served.2 (lacks among))
          · exact decide_eq_true (.inl isId)
        unfold CountsOpenReqs at before ⊢
        rw [openReqs, all]
        show link.openReqCnt.toNat = _
        rw [finished.openReqCnt, same, prepared.openReqCnt]
        exact before
      · apply counts_pred sound isOpen
        · rw [openReqs]
          apply filter_congr
          intro other _
          simp [served]
        · show link.openReqCnt = _
          rw [finished.openReqCnt, less, prepared.openReqCnt]

/-- As long as no operation goes wrong about the open requests, the counter of the link is the
number of the open requests. -/
theorem Sound.step {operation : LinkOperation}
    (fresh : system.Fresh operation) (fits : system.CountsOn operation) :
    (system.step operation).Sound := by
  cases operation with
  | scheduleRequest reqId bubbleEnable => exact sound.scheduleRequest fresh.1 fresh.2 fits
  | addReq addReq => exact sound.addReq addReq
  | trigger trigger reqId answers => exact sound.trigger fits
  | cancelReq reqId => exact sound.cancelReq fits
  | flushAll reqId => exact sound.flushAll reqId

end

/-- A request is scheduled and both devices add it. -/
def added (reqId : Int) : List LinkOperation :=
  [.scheduleRequest reqId false, .addReq ⟨1, reqId, false, 0, 0⟩, .addReq ⟨2, reqId, false, 0, 0⟩]

end OpenSystem

end Sm8650.Crm
