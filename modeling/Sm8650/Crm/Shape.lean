import Sm8650.Crm.Trigger

/-!
# What a trigger keeps of a link

The devices of a link, its tables and their distances are those that the link was set up with.
The steps of a trigger keep them, and those outside of `__cam_req_mgr_send_req` keep the counter
of open requests too.
-/

namespace Sm8650.Crm

open List BitVec

/-- What is fixed of a table. -/
def ReqTbl.shape (tbl : ReqTbl) : Nat × BitVec 32 × Nat := (tbl.pd, tbl.devMask, tbl.pdDelta)

variable (trigger : Trigger) (answers : Answers)

namespace Link

/-- The link still has its devices and tables. -/
structure KeepsShape (link next : Link) : Prop where
  devs : next.devs = link.devs
  maxDelay : next.maxDelay = link.maxDelay
  minDelay : next.minDelay = link.minDelay
  shape : next.lTbl.map ReqTbl.shape = link.lTbl.map ReqTbl.shape

/-- Moreover it has its counter of open requests. -/
structure Keeps (link next : Link) : Prop extends link.KeepsShape next where
  openReqCnt : next.openReqCnt = link.openReqCnt

variable {link next last : Link}

theorem KeepsShape.refl (link : Link) : link.KeepsShape link := ⟨rfl, rfl, rfl, rfl⟩

theorem KeepsShape.trans (first : link.KeepsShape next) (second : next.KeepsShape last) :
    link.KeepsShape last where
  devs := second.devs.trans first.devs
  maxDelay := second.maxDelay.trans first.maxDelay
  minDelay := second.minDelay.trans first.minDelay
  shape := second.shape.trans first.shape

theorem Keeps.refl (link : Link) : link.Keeps link := ⟨.refl link, rfl⟩

theorem Keeps.trans (first : link.Keeps next) (second : next.Keeps last) : link.Keeps last :=
  ⟨first.toKeepsShape.trans second.toKeepsShape, second.openReqCnt.trans first.openReqCnt⟩

/-- Only slots and indices of the queue change. -/
theorem Keeps.of_eq (devs : next.devs = link.devs) (maxDelay : next.maxDelay = link.maxDelay)
    (minDelay : next.minDelay = link.minDelay) (lTbl : next.lTbl = link.lTbl)
    (openReqCnt : next.openReqCnt = link.openReqCnt) : link.Keeps next :=
  ⟨⟨devs, maxDelay, minDelay, congrArg _ lTbl⟩, openReqCnt⟩

theorem map_shape {lTbl : List ReqTbl} {change : ReqTbl → ReqTbl}
    (same : ∀ tbl, (change tbl).shape = tbl.shape) :
    (lTbl.map change).map ReqTbl.shape = lTbl.map ReqTbl.shape := by
  rw [map_map]
  exact map_congr_left fun tbl _ => same tbl

theorem keeps_updateSlot (link : Link) (idx : Nat) (change : Slot → Slot) :
    link.Keeps (link.updateSlot idx change) := ⟨⟨rfl, rfl, rfl, rfl⟩, rfl⟩

theorem keeps_setStatus (link : Link) (idx : Nat) (status : SlotStatus) :
    link.Keeps (link.setStatus idx status) := keeps_updateSlot link idx _

theorem keeps_setLastApplied (link : Link) (last : Option Nat) :
    link.Keeps (link.setLastApplied last) := ⟨⟨rfl, rfl, rfl, rfl⟩, rfl⟩

theorem keeps_forgetLastApplied (link : Link) (idx : Nat) :
    link.Keeps (link.forgetLastApplied idx) := keeps_setLastApplied link _

theorem keeps_updateTblSlot (link : Link) (pd idx : Nat) (change : TblSlot → TblSlot) :
    link.Keeps (link.updateTblSlot pd idx change) := by
  refine ⟨⟨rfl, rfl, rfl, map_shape fun tbl => ?_⟩, rfl⟩
  split
  · rfl
  · rfl

theorem keeps_resetReqSlot (link : Link) (idx : Nat) : link.Keeps (link.resetReqSlot idx) := by
  unfold resetReqSlot
  split
  case isTrue => exact .refl link
  case isFalse => exact ⟨⟨rfl, rfl, rfl, map_shape fun _ => rfl⟩, rfl⟩

theorem keeps_recycle (link : Link) (reqId : Int) : link.Keeps (link.recycle reqId) := by
  unfold recycle
  split
  case h_1 => exact .refl link
  case h_2 idx _ => exact (keeps_forgetLastApplied link idx).trans (keeps_resetReqSlot _ _)

theorem keeps_moveToNextReqSlot (link : Link) : link.Keeps link.moveToNextReqSlot.1 := by
  unfold moveToNextReqSlot
  dsimp only
  set next := if (link.slot (incIdx link.rdIdx 1)).status = .reqApplied then
      (link.forgetLastApplied (incIdx link.rdIdx 1)).resetReqSlot (incIdx link.rdIdx 1)
    else link
  have first : link.Keeps next := by
    unfold next
    split
    case isTrue => exact (keeps_forgetLastApplied link _).trans (keeps_resetReqSlot _ _)
    case isFalse => exact .refl link
  split
  case isTrue =>
    split
    case isTrue => exact first
    case isFalse =>
      split
      case isTrue => exact first.trans (.of_eq rfl rfl rfl rfl rfl)
      case isFalse => exact first.trans (.of_eq rfl rfl rfl rfl rfl)
  case isFalse => exact first.trans (.of_eq rfl rfl rfl rfl rfl)

theorem keeps_advance (link : Link) (trigger : Trigger) (reqId : Int) :
    link.Keeps (link.advance trigger reqId).1 := by
  unfold advance
  dsimp only
  set next := if trigger = .sof then link.recycle reqId else link
  have first : link.Keeps next := by
    unfold next
    split
    case isTrue => exact keeps_recycle link reqId
    case isFalse => exact .refl link
  split
  case isTrue => exact first
  case isFalse =>
    split
    case isTrue => exact first.trans (keeps_moveToNextReqSlot next)
    case isFalse => exact first

theorem traverse_shape {slot : Nat → Slot} {validateOnly : Bool} {lTbl left : List ReqTbl}
    {idx : Nat} {applyData found : Nat → Apply}
    (ready : traverse slot validateOnly lTbl idx applyData = some (found, left)) :
    left.map ReqTbl.shape = lTbl.map ReqTbl.shape := by
  induction lTbl generalizing idx found left with
  | nil =>
    cases ready
    rfl
  | cons tbl next ih =>
    rw [traverse] at ready
    split at ready
    case isFalse => cases ready
    case isTrue =>
      split at ready
      case h_1 => cases ready
      case h_2 rest =>
        have same := ih rest
        split at ready
        case isTrue =>
          cases ready
          exact congrArg (_ :: ·) same
        case isFalse =>
          split at ready
          case isTrue =>
            cases ready
            exact congrArg (_ :: ·) same
          case isFalse =>
            cases ready
            exact congrArg (_ :: ·) same

theorem keeps_checkLinkIsReady (link : Link) (idx : Nat) (validateOnly : Bool) :
    link.Keeps (link.checkLinkIsReady idx validateOnly).1 := by
  unfold checkLinkIsReady
  dsimp only
  set start := if validateOnly then link else { link with applyData := fun _ => ⟨0, 0⟩ }
  have first : link.Keeps start := by
    unfold start
    split
    · exact .refl link
    · exact .of_eq rfl rfl rfl rfl rfl
  split
  case h_1 => exact first
  case h_2 ready => exact first.trans ⟨⟨rfl, rfl, rfl, traverse_shape ready⟩, rfl⟩

theorem injectDelay_shape (lTbl : List ReqTbl) (idx : Nat) :
    (injectDelay trigger lTbl idx).1.map ReqTbl.shape = lTbl.map ReqTbl.shape := by
  induction lTbl generalizing idx with
  | nil => rfl
  | cons tbl next ih => exact congrArg (_ :: ·) (ih _)

theorem keeps_injectDelay (link : Link) (trigger : Trigger) (idx : Nat) :
    link.Keeps (link.setTables (injectDelay trigger link.lTbl idx).1) :=
  ⟨⟨rfl, rfl, rfl, injectDelay_shape trigger link.lTbl idx⟩, rfl⟩

theorem keeps_prepareReq (link : Link) (trigger : Trigger) :
    link.Keeps (link.prepareReq trigger).1 := by
  unfold prepareReq
  dsimp only
  split
  case isTrue => exact .refl link
  case isFalse =>
    split
    case isTrue => exact .refl link
    case isFalse =>
      split
      case isTrue => exact .refl link
      case isFalse =>
        split
        case isTrue => exact keeps_injectDelay link trigger link.rdIdx
        case isFalse =>
          have checked := keeps_checkLinkIsReady link link.rdIdx true
          split
          case h_1 next isNext =>
            rw [isNext] at checked
            exact Keeps.trans checked (keeps_setStatus next next.rdIdx .reqPending)
          case h_2 next isNext =>
            rw [isNext] at checked
            have injected := Keeps.trans checked (keeps_injectDelay next trigger next.rdIdx)
            split
            case isTrue => exact injected.trans (keeps_setStatus _ _ _)
            case isFalse =>
              have found := injected.trans (keeps_checkLinkIsReady _
                (next.setTables (injectDelay trigger next.lTbl next.rdIdx).1).rdIdx false)
              split
              case h_1 last isLast =>
                rw [isLast] at found
                exact Keeps.trans found (keeps_setStatus last last.rdIdx .reqPending)
              case h_2 last isLast =>
                rw [isLast] at found
                exact Keeps.trans found (keeps_setStatus last last.rdIdx .reqReady)

theorem keeps_recovered (link : Link) : link.Keeps link.recovered := by
  unfold recovered
  split
  case isTrue => exact .of_eq rfl rfl rfl rfl rfl
  case isFalse => exact .refl link

theorem keeps_finishReq (link : Link) (rc : Int) : link.Keeps (link.finishReq rc) := by
  unfold finishReq
  dsimp only
  split
  case isTrue => exact keeps_setStatus link _ _
  case isFalse =>
    have first := keeps_recovered link
    split
    case isTrue =>
      have applied := first.trans (keeps_setStatus link.recovered link.recovered.rdIdx .reqApplied)
      exact (applied.trans (keeps_setLastApplied _ _)).trans (keeps_resetReqSlot _ _)
    case isFalse => exact first

theorem keeps_markApplied (link : Link) (dev : Device) : link.Keeps (link.markApplied dev) :=
  keeps_updateTblSlot link _ _ _

theorem keeps_eofApplied (link : Link) (dev : Device) : link.Keeps (link.eofApplied dev) :=
  (keeps_updateTblSlot link dev.pDelay (link.applyData dev.pDelay).idx fun slot =>
    { slot with ops.applyAtEof := false }).trans (.of_eq rfl rfl rfl rfl rfl)

theorem keeps_sendSpecial (link : Link)
    (devs : List Device) : link.Keeps (sendSpecial trigger answers link devs).1 := by
  induction devs generalizing link with
  | nil => exact .refl link
  | cons dev rest ih =>
    rw [sendSpecial]
    split
    case isTrue => exact ih link
    case isFalse =>
      split
      case isTrue => exact .refl link
      case isFalse =>
        split
        case isTrue => exact .refl link
        case isFalse =>
          have marked := keeps_markApplied link dev
          split
          case isTrue => exact marked.trans (keeps_eofApplied _ dev)
          case isFalse => exact marked.trans (ih (link.markApplied dev))

theorem keeps_sendRegular (devs : List Device)
    (sent : Sent) : sent.link.Keeps (sendRegular trigger answers devs sent).link := by
  induction devs generalizing sent with
  | nil => exact .refl sent.link
  | cons dev rest ih =>
    rw [sendRegular]
    split
    case isTrue =>
      split
      case isTrue => exact .refl sent.link
      case isFalse =>
        exact (keeps_markApplied sent.link dev).trans (ih (sent.take dev (answers dev)))
    case isFalse => exact ih sent

theorem keepsShape_sendReq (link : Link) (trigger : Trigger) (answers : Answers) :
    link.KeepsShape (link.sendReq trigger answers).1 := by
  have special := keeps_sendSpecial trigger answers link link.devs
  unfold sendReq
  dsimp only
  split
  case h_1 next given rc isSpecial =>
    rw [isSpecial] at special
    exact special.toKeepsShape
  case h_2 next given isSpecial =>
    rw [isSpecial] at special
    exact special.toKeepsShape
  case h_3 next given isSpecial =>
    rw [isSpecial] at special
    have sent := Keeps.trans special
      (keeps_sendRegular trigger answers next.devs ⟨next, given, -1, 0⟩)
    split
    case isTrue => exact sent.toKeepsShape
    case isFalse =>
      split
      case isTrue => exact sent.toKeepsShape.trans ⟨rfl, rfl, rfl, rfl⟩
      case isFalse => exact sent.toKeepsShape.trans ⟨rfl, rfl, rfl, rfl⟩

theorem keeps_addReq (link : Link) (addReq : AddRequest) : link.Keeps (link.addReq addReq) := by
  unfold Link.addReq
  dsimp only
  split
  case isTrue => exact .refl link
  case isFalse =>
    set counted := if addReq.triggerEof then { link with eofEventCnt := link.eofEventCnt + 1 }
      else link
    have first : link.Keeps counted := by
      unfold counted
      split
      case isTrue => exact .of_eq rfl rfl rfl rfl rfl
      case isFalse => exact .refl link
    apply first.trans
    unfold processAddReq
    split
    case h_1 => exact keeps_updateTblSlot counted _ _ _
    case h_2 => exact .refl counted

end Link

/-! ## The devices that are called -/

namespace TblSlot

theorem applied_eq (slot : TblSlot) (devBit : Nat) :
    slot.applied devBit = slot.reqApplyMap.getLsbD devBit := by
  have isTwoPow : bit devBit = twoPow 64 devBit := rfl
  unfold applied
  rw [isTwoPow, and_twoPow, getLsbD_setWidth]
  cases set : slot.reqApplyMap.getLsbD devBit with
  | false => simp
  | true =>
    have inRange : devBit < 32 := lt_of_getLsbD set
    have small : devBit < 64 := by omega
    have notZero : twoPow 64 devBit ≠ 0 := by
      intro zero
      have atBit := getLsbD_twoPow (w := 64) devBit devBit
      rw [zero] at atBit
      simp [small] at atBit
    simpa [small] using notZero

/-- A map gets the bit of a device. -/
theorem getLsbD_or_bit (map : BitVec 32) (first second : Nat) :
    ((map.setWidth 64 ||| bit first).setWidth 32).getLsbD second
      = (map.getLsbD second || decide (second < 32) && decide (first = second)) := by
  have isTwoPow : bit first = twoPow 64 first := rfl
  rw [isTwoPow]
  simp only [getLsbD_setWidth, getLsbD_or, getLsbD_twoPow]
  by_cases inRange : second < 32
  · have small : second < 64 := by omega
    by_cases same : first = second
    · simp [inRange, small, same]
    · simp [inRange, small, same]
  · have none : map.getLsbD second = false := getLsbD_of_ge _ _ (by omega)
    simp [inRange, none]

theorem setApplied_applied (slot : TblSlot) (first second : Nat) :
    (slot.setApplied first).applied second
      = (slot.applied second || decide (second < 32) && decide (first = second)) := by
  rw [applied_eq, applied_eq]
  exact getLsbD_or_bit slot.reqApplyMap first second

end TblSlot

/-- The devices of a link have a bit of their own in the maps of their table. -/
def Distinct (devs : List Device) : Prop :=
  devs.Pairwise fun first second => first.pDelay = second.pDelay → first.devBit ≠ second.devBit

namespace Link

variable {link : Link}

/-- There is a table for the pipeline delay. -/
def HasTbl (link : Link) (pd : Nat) : Prop := ∃ tbl ∈ link.lTbl, tbl.pd = pd

instance (link : Link) (pd : Nat) : Decidable (link.HasTbl pd) :=
  inferInstanceAs (Decidable (∃ tbl ∈ link.lTbl, tbl.pd = pd))

theorem KeepsShape.hasTbl {next : Link} (keeps : link.KeepsShape next) (pd : Nat) :
    next.HasTbl pd ↔ link.HasTbl pd := by
  have same := congrArg (map Prod.fst) keeps.shape
  rw [map_map, map_map] at same
  have pds := congrArg (pd ∈ ·) same
  simpa [HasTbl, ReqTbl.shape] using pds

theorem tblSlot_updateTblSlot (link : Link) (pd idx other at' : Nat) (change : TblSlot → TblSlot) :
    (link.updateTblSlot pd idx change).tblSlot other at'
      = if other = pd ∧ at' = idx ∧ link.HasTbl pd then change (link.tblSlot pd idx)
        else link.tblSlot other at' := by
  unfold tblSlot updateTblSlot
  rw [find?_map]
  have same : ((fun tbl : ReqTbl => decide (tbl.pd = other)) ∘ fun tbl =>
      if tbl.pd = pd then
        { tbl with slot := Function.update tbl.slot idx (change (tbl.slot idx)) }
      else tbl) = fun tbl : ReqTbl => decide (tbl.pd = other) := by
    funext tbl
    dsimp only [Function.comp_apply]
    split
    · rfl
    · rfl
  rw [same]
  by_cases isPd : other = pd
  · subst isPd
    cases found : link.lTbl.find? fun tbl => tbl.pd = other with
    | none =>
      have noTbl : ¬link.HasTbl other := by
        rintro ⟨tbl, among, isPd⟩
        simpa [isPd] using find?_eq_none.mp found tbl among
      simp [noTbl]
    | some tbl =>
      have isPd : tbl.pd = other := by simpa using find?_some found
      have has : link.HasTbl other := ⟨tbl, mem_of_find?_eq_some found, isPd⟩
      by_cases isIdx : at' = idx
      · simp [isPd, isIdx, has]
      · simp [isPd, isIdx]
  · cases found : link.lTbl.find? fun tbl => tbl.pd = other with
    | none => simp [isPd]
    | some tbl =>
      have isOther : tbl.pd = other := by simpa using find?_some found
      simp [isPd, isOther]

/-- That one device has taken its request says nothing about another one. -/
theorem due_markApplied (link : Link) (trigger : Trigger) {first second : Device}
    (distinct : first.pDelay = second.pDelay → first.devBit ≠ second.devBit) :
    (link.markApplied first).due trigger second = link.due trigger second := by
  have tblSlot := tblSlot_updateTblSlot link first.pDelay (link.applyData first.pDelay).idx
  have applyData : (link.markApplied first).applyData = link.applyData := rfl
  unfold due
  rw [applyData]
  unfold markApplied
  dsimp only
  rw [tblSlot]
  split
  case isTrue here =>
    have otherBit := distinct here.1.symm
    rw [here.1, TblSlot.setApplied_applied]
    simp [otherBit, TblSlot.setApplied]
  case isFalse => rfl

/-- The devices that the regular loop calls. -/
def called (link : Link) (trigger : Trigger) : List Device := link.devs.filter (link.due trigger)

/-- What a device has been found. -/
def foundFor (link : Link) (dev : Device) : Device × Int :=
  (dev, (link.applyData dev.pDelay).reqId)

theorem filter_due_take {sent : Sent} {trigger : Trigger} {dev : Device} {rest : List Device}
    (distinct : Distinct (dev :: rest)) (rc : Int) :
    rest.filter ((sent.take dev rc).link.due trigger) = rest.filter (sent.link.due trigger) := by
  apply filter_congr
  intro other among
  exact due_markApplied sent.link trigger (rel_of_pairwise_cons distinct among)

variable {devs : List Device}

theorem sendRegular_given (distinct : Distinct devs) (sent : Sent) :
    (sendRegular trigger answers devs sent).given
      = sent.given ++ (((devs.filter (sent.link.due trigger)).takeWhile
          fun dev => 0 ≤ answers dev).map sent.link.foundFor) := by
  induction devs generalizing sent with
  | nil => simp [sendRegular]
  | cons dev rest ih =>
    rw [sendRegular, filter_cons]
    split
    case isTrue =>
      split
      case isTrue fails => simp [Int.not_le.mpr fails]
      case isFalse takes =>
        rw [ih distinct.tail, filter_due_take distinct]
        simp [Int.not_lt.mp takes, Sent.take, foundFor, markApplied, updateTblSlot]
    case isFalse => exact ih distinct.tail sent

theorem sendRegular_rc (distinct : Distinct devs) (sent : Sent) (succeeds : 0 ≤ sent.rc) :
    (sendRegular trigger answers devs sent).rc < 0
      ↔ ∃ dev ∈ devs.filter (sent.link.due trigger), answers dev < 0 := by
  induction devs generalizing sent with
  | nil => simp [sendRegular, Int.not_lt.mpr succeeds]
  | cons dev rest ih =>
    rw [sendRegular, filter_cons]
    split
    case isTrue =>
      split
      case isTrue fails => simp [fails]
      case isFalse takes =>
        rw [ih distinct.tail _ (Int.not_lt.mp takes), filter_due_take distinct]
        simp [takes]
    case isFalse => exact ih distinct.tail sent succeeds

theorem sendRegular_reqAppliedToMinPd (distinct : Distinct devs) (sent : Sent) :
    (sendRegular trigger answers devs sent).reqAppliedToMinPd
      = if ∃ dev ∈ (devs.filter (sent.link.due trigger)).takeWhile fun dev => 0 ≤ answers dev,
          dev.pDelay = sent.link.minDelay
        then (sent.link.applyData sent.link.minDelay).reqId else sent.reqAppliedToMinPd := by
  induction devs generalizing sent with
  | nil => simp [sendRegular]
  | cons dev rest ih =>
    rw [sendRegular, filter_cons]
    split
    case isTrue =>
      split
      case isTrue fails => simp [Int.not_le.mpr fails]
      case isFalse takes =>
        rw [ih distinct.tail, filter_due_take distinct]
        have same : (sent.take dev (answers dev)).link.minDelay = sent.link.minDelay := rfl
        have sameData : (sent.take dev (answers dev)).link.applyData = sent.link.applyData := rfl
        rw [same, sameData, takeWhile_cons_of_pos (by simpa using takes)]
        by_cases isMin : dev.pDelay = sent.link.minDelay
        · simp [isMin, Sent.take]
        · simp [isMin, Sent.take]
    case isFalse => exact ih distinct.tail sent

theorem applyData_sendSpecial (link : Link) (devs : List Device) :
    (sendSpecial trigger answers link devs).1.applyData = link.applyData := by
  induction devs generalizing link with
  | nil => rfl
  | cons dev rest ih =>
    rw [sendSpecial]
    split
    case isTrue => exact ih link
    case isFalse =>
      split
      case isTrue => rfl
      case isFalse =>
        split
        case isTrue => rfl
        case isFalse =>
          split
          case isTrue => rfl
          case isFalse => exact ih (link.markApplied dev)

/-- Special operations give a device what has been found for it. -/
theorem sendSpecial_given (link : Link) (devs : List Device) :
    ∀ pair ∈ (sendSpecial trigger answers link devs).2.1, pair = link.foundFor pair.1 := by
  induction devs generalizing link with
  | nil => exact fun _ among => absurd among not_mem_nil
  | cons dev rest ih =>
    rw [sendSpecial]
    split
    case isTrue => exact ih link
    case isFalse =>
      split
      case isTrue => exact fun _ among => absurd among not_mem_nil
      case isFalse =>
        split
        case isTrue => exact fun _ among => absurd among not_mem_nil
        case isFalse =>
          intro pair among
          split at among
          case isTrue =>
            rw [mem_singleton.mp among]
            rfl
          case isFalse =>
            rcases mem_cons.mp among with isFirst | later
            · rw [isFirst]
              rfl
            · exact ih (link.markApplied dev) pair later

end Link

end Sm8650.Crm
