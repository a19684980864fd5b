import Sm8650.Crm.Effects

/-!
# The tables of a link and their slots

The tables of the pipeline delays are made one by one while the devices are connected. A slot of
a table keeps in 32 bits which of its devices have added the request.
-/

namespace Sm8650.Crm

open List

/-- The next device, with its number among the devices of its delay. -/
def numberNext (devs : List Device) (info : DeviceInfo) : List Device :=
  devs ++ [{ info with devBit := (devs.filter fun dev => dev.pDelay = info.pDelay).length }]

/-- The devices with their numbers. -/
def numbered (infos : List DeviceInfo) : List Device := infos.foldl numberNext []

/-- The devices with a number below 32 are the first ones with their handles, and the others
share theirs with one of those of the same delay. -/
def FitsMasks (devs : List Device) : Prop :=
  ∀ dev ∈ devs,
    if dev.devBit < 32 then (devs.find? fun other => other.devHdl = dev.devHdl) = some dev
    else ∃ other ∈ devs, other.pDelay = dev.pDelay ∧ other.devBit < 32 ∧
      other.devHdl = dev.devHdl

/-- The last table has no distance to a next one. -/
def LastZero : List ReqTbl → Prop
  | [] => True
  | [tbl] => tbl.pdDelta = 0
  | _ :: next :: rest => LastZero (next :: rest)

theorem Distinct.eq_of_bit {devs : List Device} (distinct : Distinct devs) {first second : Device}
    (firstAmong : first ∈ devs) (secondAmong : second ∈ devs)
    (sameDelay : first.pDelay = second.pDelay) (sameBit : first.devBit = second.devBit) :
    first = second :=
  Pairwise.forall_of_forall_of_flip
    (R := fun first second => first.pDelay = second.pDelay → first.devBit = second.devBit →
      first = second)
    (fun _ _ _ _ => rfl) (distinct.imp fun apart same bit => absurd bit (apart same))
    (distinct.imp fun apart same bit => absurd bit.symm (apart same.symm))
    firstAmong secondAmong sameDelay sameBit

namespace Link

/-- `cam_req_mgr_process_add_req` has no room for the special operations of the device. -/
def refuses (link : Link) (addReq : AddRequest) : Bool :=
  addReq.triggerEof &&
    match link.devs.find? fun dev => dev.devHdl = addReq.devHdl,
        link.findSlotForReq addReq.reqId with
    | some dev, some idx =>
      (link.tblSlot dev.pDelay idx).ops.devHdl.length = maxDevForSpecialOps
    | _, _ => false

/-- A device adds a request; the handles of those that have done so are recorded. -/
def recordAdd (state : Link × List Int) (addReq : AddRequest) : Link × List Int :=
  (state.1.processAddReq addReq,
    if state.1.refuses addReq then state.2 else addReq.devHdl :: state.2)

/-- In whatever order the devices add a request, a slot for it gets ready if and only if all
devices of the delay have added it. -/
def ReadyWithAll (infos : List DeviceInfo) : Prop :=
  ∀ link, (setup infos).KeepsShape link →
    ∀ reqId idx, link.findSlotForReq reqId = some idx →
      (∀ tbl ∈ link.lTbl, (tbl.slot idx).reqReadyMap = 0 ∧ (tbl.slot idx).state = .empty) →
      ∀ adds : List AddRequest, (∀ addReq ∈ adds, addReq.reqId = reqId) →
        ∀ tbl ∈ (adds.foldl recordAdd (link, [])).1.lTbl, (tbl.slot idx).state = .ready ↔
          ∀ dev ∈ link.devs, dev.pDelay = tbl.pd →
            dev.devHdl ∈ (adds.foldl recordAdd (link, [])).2

/-- The tables stand in falling order, one for each delay, with their distances and skips, and
their slots get ready with all of their devices. -/
structure Tabled (infos : List DeviceInfo) : Prop where
  chained : Chained (setup infos).lTbl
  last : LastZero (setup infos).lTbl
  hasTbl : ∀ pd, (setup infos).HasTbl pd ↔ ∃ info ∈ infos, info.pDelay = pd
  skip : ∀ tbl ∈ (setup infos).lTbl, tbl.skipTraverse = (setup infos).maxDelay - tbl.pd
  ready : ReadyWithAll infos

variable {link : Link} {infos : List DeviceInfo}

/-! ## The devices and the last table -/

/-- Every table counts its devices and has a bit for the first one, and the last table has no
distance. -/
structure Counting (link : Link) : Prop where
  counts : ∀ tbl ∈ link.lTbl,
    tbl.devCount = (link.devs.filter fun dev => dev.pDelay = tbl.pd).length
  firstBit : ∀ tbl ∈ link.lTbl, tbl.devMask.getLsbD 0 = true
  last : LastZero link.lTbl

theorem lastZero_addTblAfter (newTbl tbl : ReqTbl) {rest : List ReqTbl}
    (last : LastZero (tbl :: rest)) : LastZero (addTblAfter newTbl tbl rest) := by
  induction rest generalizing tbl with
  | nil => exact rfl
  | cons next rest ih =>
    obtain ⟨delta, others, isCons⟩ := addTblAfter_eq_cons newTbl next rest
    rw [addTblAfter]
    split
    · have later := ih next last
      rw [isCons] at later ⊢
      exact later
    · exact last

theorem lastZero_map {lTbl : List ReqTbl} {change : ReqTbl → ReqTbl}
    (same : ∀ tbl, (change tbl).pdDelta = tbl.pdDelta) (last : LastZero lTbl) :
    LastZero (lTbl.map change) := by
  induction lTbl with
  | nil => trivial
  | cons tbl rest ih =>
    cases rest with
    | nil => exact (same tbl).trans last
    | cons next rest => exact ih last

theorem Counting.connect (counting : link.Counting) (connected : link.Connected)
    (info : DeviceInfo) : (link.connect info).Counting ∧
      (link.connect info).devs = numberNext link.devs info := by
  have before : ∀ tbl ∈ link.tablesFor info.pDelay,
      tbl.devCount = (link.devs.filter fun dev => dev.pDelay = tbl.pd).length := by
    refine forall_tablesFor (fun _ => Iff.rfl) counting.counts fun absent => ?_
    have none : (link.devs.filter fun dev => dev.pDelay = info.pDelay) = [] :=
      filter_eq_nil_iff.mpr fun dev among isPd =>
        absent ((connected.hasTbl _).mpr ⟨dev, among, of_decide_eq_true isPd⟩)
    exact (congrArg length none).symm
  have firstBit : ∀ tbl ∈ link.tablesFor info.pDelay,
      tbl.devMask.getLsbD 0 = true ∨ tbl.pd = info.pDelay ∧ tbl.devCount = 0 :=
    forall_tablesFor (fun _ => Iff.rfl) (fun tbl among => .inl (counting.firstBit tbl among))
      fun _ => .inr ⟨rfl, rfl⟩
  have last : LastZero (link.tablesFor info.pDelay) := by
    have old := counting.last
    unfold tablesFor addTblToLink
    split
    · exact old
    · split
      case h_1 => exact rfl
      case h_2 tbl rest isCons =>
        rw [isCons] at old
        split
        · exact old
        · exact lastZero_addTblAfter _ tbl old
  obtain ⟨own, ownAmong, isOwn⟩ :=
    (connected.hasTbl_tablesFor info.pDelay info.pDelay).mpr (.inr rfl)
  have isBit := connected.devBit_deviceOf info
  have ownBit := isBit own ownAmong isOwn
  rw [before own ownAmong, isOwn] at ownBit
  rw [connect_eq]
  refine ⟨⟨?_, ?_, lastZero_map (fun tbl => ?_) last⟩, ?_⟩
  · intro tbl among
    obtain ⟨old, oldAmong, rfl⟩ := mem_map.mp among
    have isOld := before old oldAmong
    have newDelay : (link.deviceOf info).pDelay = info.pDelay := rfl
    split
    case isTrue isDelay => simp [isOld, newDelay, isDelay]
    case isFalse notDelay => simp [isOld, newDelay, Ne.symm notDelay]
  · intro tbl among
    obtain ⟨old, oldAmong, rfl⟩ := mem_map.mp among
    rcases firstBit old oldAmong with isSet | ⟨isDelay, none⟩
    · split
      · rw [TblSlot.getLsbD_or_bit, isSet, Bool.true_or]
      · exact isSet
    · rw [if_pos isDelay, isBit old oldAmong isDelay, none, TblSlot.getLsbD_or_bit]
      simp
  · split <;> rfl
  · exact congrArg (fun nr => link.devs ++ [{ info with devBit := nr }]) ownBit

theorem counting_foldl (counting : link.Counting) (connected : link.Connected)
    (infos : List DeviceInfo) : (infos.foldl Link.connect link).Counting ∧
      (infos.foldl Link.connect link).devs = infos.foldl numberNext link.devs := by
  induction infos generalizing link with
  | nil => exact ⟨counting, rfl⟩
  | cons info rest ih =>
    obtain ⟨next, isNext⟩ := counting.connect connected info
    rw [foldl_cons, foldl_cons, ← isNext]
    exact ih next (connected.connect info)

theorem lastZero_tblSetAllSkipCnt {lTbl : List ReqTbl} (last : LastZero lTbl) :
    LastZero (tblSetAllSkipCnt lTbl) := by
  cases lTbl with
  | nil => trivial
  | cons first rest => exact lastZero_map (fun _ => rfl) last

theorem counting_connected (infos : List DeviceInfo) :
    (infos.foldl Link.connect reserved).Counting ∧ (setup infos).devs = numbered infos := by
  have none : reserved.Counting :=
    ⟨fun _ among => absurd among not_mem_nil, fun _ among => absurd among not_mem_nil, trivial⟩
  exact counting_foldl none connected_reserved infos

theorem delays_numbered (devs : List Device) (infos : List DeviceInfo) (pd : Nat) :
    (∃ dev ∈ infos.foldl numberNext devs, dev.pDelay = pd)
      ↔ (∃ dev ∈ devs, dev.pDelay = pd) ∨ ∃ info ∈ infos, info.pDelay = pd := by
  induction infos generalizing devs with
  | nil => simp
  | cons info rest ih =>
    rw [foldl_cons, ih]
    simp [numberNext, or_assoc]

theorem hasTbl_setup (pd : Nat) :
    (setup infos).HasTbl pd ↔ ∃ dev ∈ (setup infos).devs, dev.pDelay = pd := by
  have keeps : (infos.foldl Link.connect reserved).KeepsShape (setup infos) :=
    ⟨rfl, rfl, rfl, tblSetAllSkipCnt_shape _⟩
  exact (keeps.hasTbl pd).trans ((connected_foldl connected_reserved infos).hasTbl pd)

/-! ## Adding a request -/

/-- A device is the one that a recorded handle is looked up as. -/
def Added (devs : List Device) (added : List Int) (dev : Device) : Prop :=
  ∃ devHdl ∈ added, (devs.find? fun other => other.devHdl = devHdl) = some dev

/-- What the slots for a request say of the devices that have added it. -/
structure Recorded (link : Link) (idx : Nat) (state : Link × List Int) : Prop where
  keeps : link.KeepsShape state.1
  queue : state.1.slot = link.slot ∧ state.1.rdIdx = link.rdIdx
  slots : ∀ tbl ∈ state.1.lTbl,
    ((tbl.slot idx).state = .ready ↔ (tbl.slot idx).reqReadyMap = tbl.devMask) ∧
      ∀ nr, (tbl.slot idx).reqReadyMap.getLsbD nr = true
        ↔ nr < 32 ∧ ∃ dev, Added link.devs state.2 dev ∧ dev.pDelay = tbl.pd ∧ dev.devBit = nr

theorem addToSlot_spec (addReq : AddRequest) (slot : TblSlot) (dev : Device) (mask : BitVec 32) :
    let next := addToSlot addReq slot dev mask
    if addReq.triggerEof && decide (slot.ops.devHdl.length = maxDevForSpecialOps) then
      next.reqReadyMap = slot.reqReadyMap ∧ next.state = slot.state
    else
      next.reqReadyMap = (slot.reqReadyMap.setWidth 64 ||| bit dev.devBit).setWidth 32 ∧
        (next.state = .ready ↔ next.reqReadyMap = mask) := by
  unfold addToSlot
  simp only [Bool.and_eq_true, decide_eq_true_eq]
  split
  case isTrue => exact ⟨rfl, rfl⟩
  case isFalse =>
    split
    all_goals
      refine ⟨rfl, ?_⟩
      split
      · exact iff_of_true rfl ‹_›
      · exact iff_of_false nofun ‹_›

theorem Recorded.step {idx : Nat} {state : Link × List Int} {addReq : AddRequest}
    (recorded : Recorded link idx state) (framed : link.Framed)
    (isIdx : link.findSlotForReq addReq.reqId = some idx) :
    Recorded link idx (recordAdd state addReq) := by
  have same : state.1.findSlotForReq addReq.reqId = some idx := by
    unfold findSlotForReq
    rw [recorded.queue.1, recorded.queue.2]
    exact isIdx
  have chained := (framed.keep recorded.keeps).chained
  have added : ∀ dev, Added link.devs (addReq.devHdl :: state.2) dev
      ↔ (link.devs.find? fun other => other.devHdl = addReq.devHdl) = some dev
        ∨ Added link.devs state.2 dev := by simp [Added]
  unfold recordAdd processAddReq refuses
  rw [same, recorded.keeps.devs]
  cases found : link.devs.find? fun dev => dev.devHdl = addReq.devHdl with
  | none =>
    have slots := recorded.slots
    simp only [found, reduceCtorEq, false_or] at added
    simp only [← added] at slots
    simp only [Bool.and_false]
    exact { recorded with slots }
  | some dev =>
    have keeps := keeps_updateTblSlot state.1 dev.pDelay idx fun slot =>
      addToSlot addReq slot dev (state.1.devMask dev.pDelay)
    simp only [found, Option.some.injEq] at added
    refine ⟨recorded.keeps.trans keeps.toKeepsShape, recorded.queue, ?_⟩
    intro tbl among
    obtain ⟨old, oldAmong, rfl⟩ := mem_map.mp among
    obtain ⟨ready, bits⟩ := recorded.slots old oldAmong
    dsimp only
    by_cases isPd : old.pd = dev.pDelay
    · have spec := addToSlot_spec addReq (old.slot idx) dev old.devMask
      have isSlot := tblSlot_of_mem chained oldAmong idx
      have isMask := devMask_of_mem chained oldAmong
      rw [isPd] at isSlot isMask
      simp only [if_pos isPd, isSlot, isMask, Function.update_self]
      split at spec
      case isTrue refused =>
        rw [spec.1, spec.2, if_pos refused]
        exact ⟨ready, bits⟩
      case isFalse taken =>
        rw [if_neg taken]
        refine ⟨spec.2, fun nr => ?_⟩
        rw [spec.1, TblSlot.getLsbD_or_bit, Bool.or_eq_true, bits]
        simp [added, isPd, ← and_or_left, or_comm]
    · rw [if_neg isPd]
      refine ⟨ready, fun nr => (bits nr).trans ?_⟩
      split
      case isTrue => rfl
      case isFalse => simp only [added, or_and_right, exists_or, exists_eq_left', Ne.symm isPd, false_and, false_or]

theorem recorded_foldl {idx : Nat} {reqId : Int} {state : Link × List Int}
    (recorded : Recorded link idx state) (framed : link.Framed)
    (isIdx : link.findSlotForReq reqId = some idx) {adds : List AddRequest}
    (forReq : ∀ addReq ∈ adds, addReq.reqId = reqId) :
    Recorded link idx (adds.foldl recordAdd state) := by
  induction adds generalizing state with
  | nil => exact recorded
  | cons addReq rest ih =>
    rw [forall_mem_cons] at forReq
    exact ih (recorded.step framed (forReq.1 ▸ isIdx)) forReq.2

/-- A slot is ready with the devices that have a bit of their own in the map. -/
theorem Recorded.ready_iff {idx : Nat} {state : Link × List Int}
    (recorded : Recorded link idx state) (framed : link.Framed) {tbl : ReqTbl}
    (among : tbl ∈ state.1.lTbl) : (tbl.slot idx).state = .ready ↔
      ∀ dev ∈ link.devs, dev.pDelay = tbl.pd → dev.devBit < 32 →
        Added link.devs state.2 dev := by
  have masked := (framed.keep recorded.keeps).masked tbl among
  rw [recorded.keeps.devs] at masked
  obtain ⟨ready, bits⟩ := recorded.slots tbl among
  rw [ready]
  constructor
  · intro same dev devAmong isPd small
    have isSet := (masked dev.devBit).mpr ⟨small, dev, devAmong, isPd, rfl⟩
    rw [← same, bits] at isSet
    obtain ⟨-, other, added, samePd, sameBit⟩ := isSet
    have found := added.choose_spec.2
    have isDev := framed.distinct.eq_of_bit (mem_of_find?_eq_some found) devAmong
      (samePd.trans isPd.symm) sameBit
    rwa [← isDev]
  · intro all
    refine BitVec.eq_of_getLsbD_eq fun nr inRange => ?_
    rw [Bool.eq_iff_iff, bits, masked]
    refine and_congr_right fun _ => ⟨?_, ?_⟩
    · rintro ⟨dev, ⟨_, -, found⟩, fits⟩
      exact ⟨dev, mem_of_find?_eq_some found, fits⟩
    · rintro ⟨dev, devAmong, isPd, isBit⟩
      exact ⟨dev, all dev devAmong isPd (isBit ▸ inRange), isPd, isBit⟩

/-! ## Which devices fit the masks -/

/-- A mask is complete with the handles of all devices of its delay. -/
def Exact (devs : List Device) : Prop :=
  ∀ (pd : Nat) (added : List Int),
    (∀ dev ∈ devs, dev.pDelay = pd → dev.devBit < 32 → Added devs added dev) ↔
      ∀ dev ∈ devs, dev.pDelay = pd → dev.devHdl ∈ added

theorem added_iff {devs : List Device} {added : List Int} {dev : Device} :
    Added devs added dev ↔ dev.devHdl ∈ added ∧
      (devs.find? fun other => other.devHdl = dev.devHdl) = some dev := by
  constructor
  · rintro ⟨devHdl, listed, found⟩
    have isHdl : dev.devHdl = devHdl := by simpa using find?_some found
    rw [isHdl]
    exact ⟨listed, found⟩
  · exact fun ⟨listed, found⟩ => ⟨_, listed, found⟩

theorem exact_iff (devs : List Device) : Exact devs ↔ FitsMasks devs := by
  unfold Exact
  simp only [added_iff]
  constructor
  · intro exact dev among
    have first : ∀ dev ∈ devs, dev.devBit < 32 →
        (devs.find? fun other => other.devHdl = dev.devHdl) = some dev := fun dev among small =>
      ((exact dev.pDelay (devs.map (·.devHdl))).mpr
        (fun dev among _ => mem_map_of_mem among) dev among rfl small).2
    split
    case isTrue small => exact first dev among small
    case isFalse =>
      have listed := (exact dev.pDelay ((devs.filter fun other =>
          other.pDelay = dev.pDelay ∧ other.devBit < 32).map (·.devHdl))).mp
        (fun other isOther samePd small => ⟨mem_map_of_mem (mem_filter.mpr
          ⟨isOther, decide_eq_true ⟨samePd, small⟩⟩), first other isOther small⟩) dev among rfl
      simpa [and_assoc] using listed
  · intro fits pd added
    constructor
    · intro all dev among isPd
      have fitsDev := fits dev among
      split at fitsDev
      case isTrue small => exact (all dev among isPd small).1
      case isFalse =>
        obtain ⟨other, isOther, samePd, small, sameHdl⟩ := fitsDev
        exact sameHdl ▸ (all other isOther (samePd.trans isPd) small).1
    · intro all dev among isPd small
      have fitsDev := fits dev among
      rw [if_pos small] at fitsDev
      exact ⟨all dev among isPd, fitsDev⟩

theorem recordAdd_foldl (handles : List Int) (reqId : Int) (state : Link × List Int) :
    ((handles.map fun devHdl => ⟨devHdl, reqId, false, 0, 0⟩).foldl recordAdd state).2
      = handles.reverse ++ state.2 := by
  induction handles generalizing state with
  | nil => rfl
  | cons devHdl rest ih =>
    rw [map_cons, foldl_cons, ih, reverse_cons, append_assoc]
    rfl

theorem readyWithAll_iff (infos : List DeviceInfo) :
    ReadyWithAll infos ↔ Exact (setup infos).devs := by
  have framed := framed_setup infos
  have start : ∀ {link : Link} {idx : Nat}, (setup infos).KeepsShape link →
      (∀ tbl ∈ link.lTbl, (tbl.slot idx).reqReadyMap = 0 ∧ (tbl.slot idx).state = .empty) →
        Recorded link idx (link, []) := by
    intro link idx keeps clear
    refine ⟨.refl link, ⟨rfl, rfl⟩, fun tbl among => ?_⟩
    obtain ⟨noBits, empty⟩ := clear tbl among
    rw [noBits, empty]
    refine ⟨⟨nofun, fun isMask => ?_⟩, fun nr => by simp [Added]⟩
    have isShape : tbl.shape ∈ (infos.foldl Link.connect reserved).lTbl.map ReqTbl.shape := by
      rw [← tblSetAllSkipCnt_shape]
      exact keeps.shape ▸ mem_map_of_mem among
    obtain ⟨before, isBefore, same⟩ := mem_map.mp isShape
    have isBit := (counting_connected infos).1.firstBit before isBefore
    rw [show before.devMask = tbl.devMask from congrArg (·.2.1) same, ← isMask] at isBit
    cases isBit
  constructor
  · intro ready pd added
    by_cases has : ∃ dev ∈ (setup infos).devs, dev.pDelay = pd
    · let link := (setup infos).flushReqSlot.updateSlot 0 fun _ => ⟨1, false, .reqAdded, false⟩
      have keeps : (setup infos).KeepsShape link := ⟨rfl, rfl, rfl, map_shape fun _ => rfl⟩
      have clear : ∀ tbl ∈ link.lTbl,
          (tbl.slot 0).reqReadyMap = 0 ∧ (tbl.slot 0).state = .empty := by
        intro tbl among
        obtain ⟨before, -, rfl⟩ := mem_map.mp among
        exact ⟨rfl, rfl⟩
      have isIdx : link.findSlotForReq 1 = some 0 := rfl
      have forReq : ∀ addReq ∈ added.map fun devHdl => AddRequest.mk devHdl 1 false 0 0,
          addReq.reqId = 1 := by simp
      have recorded := recorded_foldl (start keeps clear) (framed.keep keeps) isIdx forReq
      obtain ⟨tbl, among, isPd⟩ := ((keeps.trans recorded.keeps).hasTbl pd).mpr
        ((hasTbl_setup pd).mpr has)
      have isReady := ready link keeps 1 0 isIdx clear _ forReq tbl among
      rw [recorded.ready_iff (framed.keep keeps) among, recordAdd_foldl, append_nil, isPd]
        at isReady
      simp only [Added, mem_reverse] at isReady ⊢
      exact isReady
    · exact iff_of_true (fun dev among isPd => absurd ⟨dev, among, isPd⟩ has)
        fun dev among isPd => absurd ⟨dev, among, isPd⟩ has
  · intro exact link keeps reqId idx isIdx clear adds forReq tbl among
    have recorded := recorded_foldl (start keeps clear) (framed.keep keeps) isIdx forReq
    rw [recorded.ready_iff (framed.keep keeps) among, keeps.devs]
    exact exact _ _

/-- The tables are right if and only if the devices fit the masks. -/
theorem tabled_iff (infos : List DeviceInfo) : Tabled infos ↔ FitsMasks (numbered infos) := by
  have connected := connected_foldl connected_reserved infos
  have masked : Masked (infos.foldl Link.connect reserved) :=
    masked_foldl connected_reserved (fun _ among => absurd among not_mem_nil) infos
  obtain ⟨counting, devs⟩ := counting_connected infos
  rw [← exact_iff, ← devs, ← readyWithAll_iff]
  refine ⟨Tabled.ready, fun ready => ⟨(framed_setup infos).chained,
    lastZero_tblSetAllSkipCnt counting.last, fun pd => ?_,
    skip_tblSetAllSkipCnt (connected.framed masked).first, ready⟩⟩
  rw [hasTbl_setup, devs]
  exact (delays_numbered [] infos pd).trans (by simp)

/-- 33 devices of one delay. -/
def manyInfos : List DeviceInfo :=
  (range 33).map fun nr => ⟨nr, .sensor, 0, camPipelineDelayMax_pos, true, false⟩

/-- The last of 33 devices of one delay has no bit, and the slot is ready without it. -/
theorem not_tabled : ¬Tabled manyInfos := by
  intro tabled
  let link := (setup manyInfos).updateSlot 0 fun _ => ⟨1, false, .reqAdded, false⟩
  have ready := tabled.ready link (keeps_updateSlot _ _ _).toKeepsShape 1 0 rfl
    (by decide +kernel) ((range 32).map fun nr => ⟨nr, 1, false, 0, 0⟩) (by simp)
  revert ready
  decide +kernel

end Link

end Sm8650.Crm
