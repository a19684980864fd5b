import Sm8650.Crm.Link
import Sm8650.Crm.SyncLinks

/-!
# Scheduling a request with sync links

A request names the links that are to run in sync with its own. The handles pass from the
request through the payload of a task, which is a local variable, into the slot of the request;
each of the arrays has a bound of its own. The model lists the elements that are used and reads
an array beyond its end as whatever is there.

Source: `cam_req_mgr_core.c`, `cam_req_mgr.h`.
-/

namespace Sm8650.Crm

open List Function

/-- `CAM_REQ_MGR_SYNC_MODE_SYNC` -/
def camReqMgrSyncModeSync : Int := 1

/-- `CAM_REQ_MGR_WATCHDOG_TIMEOUT_MAX` -/
def camReqMgrWatchdogTimeoutMax : Int := 50000

/-- `force_err_recovery` -/
inductive Recovery
  | auto
  | forceEnable
  | forceDisable
  deriving DecidableEq, Repr

/-- `struct cam_req_mgr_sched_request` -/
structure SchedRequest where
  linkHdl : Int
  bubbleEnable : Bool
  syncMode : Int
  additionalTimeout : Int
  reqId : Int

/-- `struct cam_req_mgr_sched_request_v2`, with the first of its parameters. -/
structure SchedRequestV2 extends SchedRequest where
  numLinks : Int
  linkHdls : Nat → Int
  shiftTimestamp : Int

/-- The fields of `struct cam_req_mgr_slot` that only sync links and the watchdog use; the handles
are the first `num_sync_links` ones. -/
structure SyncSlot where
  syncMode : Int
  additionalTimeout : Int
  syncLinkHdls : List Int

/-- A link, the session that it belongs to and the `initial_sync_req` of its sync links. -/
structure SchedLink where
  linkHdl : Int
  parent : Option Recovery
  link : Link
  syncSlot : Nat → SyncSlot
  initialSyncReq : Int
  syncLinkReqs : List Int
  shiftTimestamp : Int

/-- An element of `link_hdls` in the request or in the payload, of `sync_links` or of a slot's
`sync_link_hdls`. -/
inductive HdlAccess
  | linkHdls (i : Nat)
  | syncLinks (i : Nat)
  | syncLinkHdls (i : Nat)
  deriving DecidableEq

/-- The element is one of the array. -/
def HdlAccess.Ok : HdlAccess → Prop
  | linkHdls i => i < maxLinksPerSession
  | syncLinks i => i < maximumLinksPerSession
  | syncLinkHdls i => i < maximumLinksPerSession - 1

/-- The loop of `cam_req_mgr_process_sched_req` from the handle `i` on. -/
def storeLinks (own : Int) (linkHdls : Nat → Int) : Nat → Nat → List Int → List HdlAccess × List Int
  | 0, _, stored => ([], stored)
  | count + 1, i, stored =>
    if own ≠ linkHdls i then
      let rest := storeLinks own linkHdls count (i + 1) (stored ++ [linkHdls i])
      (.linkHdls i :: .syncLinkHdls stored.length :: rest.1, rest.2)
    else
      let rest := storeLinks own linkHdls count (i + 1) stored
      (.linkHdls i :: rest.1, rest.2)

/-- `cam_req_mgr_process_sched_req` -/
def SchedLink.process (link : SchedLink) (task : SchedRequestV2) : List HdlAccess × SchedLink :=
  let stored := storeLinks link.linkHdl task.linkHdls task.numLinks.toNat 0 []
  (stored.1,
    { link with
      link := link.link.processSchedReq task.reqId task.bubbleEnable
      syncSlot := update link.syncSlot link.link.wrIdx
        { syncMode := task.syncMode
          additionalTimeout := max 0 (min task.additionalTimeout camReqMgrWatchdogTimeoutMax)
          syncLinkHdls := stored.2 }
      initialSyncReq :=
        if task.syncMode = camReqMgrSyncModeSync then
          if link.initialSyncReq = -1 then task.reqId else link.initialSyncReq
        else -1
      syncLinkReqs :=
        if task.syncMode = camReqMgrSyncModeSync then link.syncLinkReqs
        else link.syncLinkReqs.map fun _ => -1
      shiftTimestamp := task.shiftTimestamp })

/-- The loop of `cam_req_mgr_schedule_request_v2` from the handle `i` on; says whether every
handle is one of a link. -/
def checkLinks (isLink : Int → Bool) (linkHdls : Nat → Int) : Nat → Nat → List HdlAccess × Bool
  | 0, _ => ([], true)
  | count + 1, i =>
    if linkHdls i = 0 then ([.linkHdls i], false)
    else if isLink (linkHdls i) then
      let rest := checkLinks isLink linkHdls count (i + 1)
      (.linkHdls i :: .syncLinks i :: rest.1, rest.2)
    else ([.linkHdls i, .syncLinks i], false)

/-- What both versions check first: the link that has the handle, its session and the last
flush. -/
def SchedRequest.taken (req : SchedRequest) (link : Option SchedLink) :
    Option (SchedLink × Recovery) :=
  match link with
  | none => none
  | some link =>
    if link.linkHdl ≠ req.linkHdl then none
    else
      match link.parent with
      | none => none
      | some recovery => if req.reqId ≤ link.link.lastFlushId then none else some (link, recovery)

/-- The payload with what both versions copy. -/
def SchedRequestV2.copy (task : SchedRequestV2) (req : SchedRequest) (recovery : Recovery) :
    SchedRequestV2 :=
  { task with
    toSchedRequest :=
      { req with
        bubbleEnable :=
          match recovery with
          | .auto => req.bubbleEnable
          | .forceEnable => true
          | .forceDisable => false } }

/-- The link after the checks. -/
def SchedLink.unflushed (link : SchedLink) : SchedLink :=
  { link with link.lastFlushId := 0 }

/-- `cam_req_mgr_schedule_request` with what the payload happens to hold; the link is there if the
request was accepted. -/
def scheduleRequest (link : Option SchedLink) (payload : SchedRequestV2) (req : SchedRequest) :
    List HdlAccess × Option SchedLink :=
  match req.taken link with
  | none => ([], none)
  | some (link, recovery) =>
    let processed := link.unflushed.process (payload.copy req recovery)
    (processed.1, some processed.2)

/-- `cam_req_mgr_schedule_request_v2` with what the payload happens to hold. -/
def scheduleRequestV2 (isLink : Int → Bool) (link : Option SchedLink)
    (payload req : SchedRequestV2) : List HdlAccess × Option SchedLink :=
  match req.taken link with
  | none => ([], none)
  | some (link, recovery) =>
    let task :=
      { payload.copy req.toSchedRequest recovery with shiftTimestamp := req.shiftTimestamp }
    if req.syncMode = camReqMgrSyncModeSync then
      -- the check of `num_links` wants it to be too small and too large at once
      let checked := checkLinks isLink req.linkHdls req.numLinks.toNat 0
      if checked.2 then
        let processed := link.unflushed.process
          { task with
            numLinks := req.numLinks
            linkHdls := fun i =>
              if i < req.numLinks.toNat then req.linkHdls i else payload.linkHdls i }
        (checked.1 ++ processed.1, some processed.2)
      else (checked.1, none)
    else
      let processed := link.unflushed.process { task with numLinks := 0 }
      (processed.1, some processed.2)

/-! ## What should be stored -/

/-- Only elements of the arrays are used, and an accepted request leaves the other links that it
named in its slot. -/
def Stores (link : Option SchedLink) (others : Int → List Int)
    (result : List HdlAccess × Option SchedLink) : Prop :=
  (∀ access ∈ result.1, access.Ok) ∧ ∀ before after, link = some before → result.2 = some after →
    (after.syncSlot before.link.wrIdx).syncLinkHdls = others before.linkHdl ∧
      (others before.linkHdl).length ≤ maximumLinksPerSession - 1

/-- The other links among the first handles. -/
def othersOf (linkHdls : Nat → Int) (count : Nat) (own : Int) : List Int :=
  ((range count).map linkHdls).filter (own ≠ ·)

/-- The other links that a request names. -/
def SchedRequestV2.others (req : SchedRequestV2) (own : Int) : List Int :=
  if req.syncMode = camReqMgrSyncModeSync then othersOf req.linkHdls req.numLinks.toNat own else []

/-- The handle is one of a link. -/
def IsLink (isLink : Int → Bool) (hdl : Int) : Prop := hdl ≠ 0 ∧ isLink hdl = true

/-- The request is refused before the payload is used, or what the payload happens to hold names
no more than two links, and no other one. -/
def PayloadFits (link : Option SchedLink) (payload : SchedRequestV2) (req : SchedRequest) : Prop :=
  req.taken link = none ∨ payload.numLinks ≤ maxLinksPerSession ∧
    ∀ i < payload.numLinks.toNat, payload.linkHdls i = req.linkHdl

/-- The request is refused, is not for sync mode, names no more than two links, or one of the two
handles that it has room for is not one of a link. -/
def RequestFits (isLink : Int → Bool) (link : Option SchedLink) (req : SchedRequestV2) : Prop :=
  req.taken link = none ∨ req.syncMode ≠ camReqMgrSyncModeSync ∨
    req.numLinks ≤ maxLinksPerSession ∨ ¬IsLink isLink (req.linkHdls 0) ∨
    ¬IsLink isLink (req.linkHdls 1)

/-! ## The loops -/

variable {own : Int} {linkHdls : Nat → Int}

theorem storeLinks_snd (count i : Nat) (stored : List Int) :
    (storeLinks own linkHdls count i stored).2 =
      stored ++ ((range' i count).map linkHdls).filter (own ≠ ·) := by
  induction count generalizing i stored with
  | zero => simp [storeLinks]
  | succ count ih =>
    rw [storeLinks, range'_succ, map_cons]
    split
    case isTrue other => rw [ih, filter_cons_of_pos (by simpa using other), append_assoc,
        singleton_append]
    case isFalse same => rw [ih, filter_cons_of_neg (by simpa using same)]

theorem storeLinks_ok (count : Nat) {i : Nat} {stored : List Int} (fewer : stored.length ≤ i) :
    (∀ access ∈ (storeLinks own linkHdls count i stored).1, access.Ok) ↔
      count = 0 ∨ i + count ≤ maxLinksPerSession := by
  induction count generalizing i stored with
  | zero => simp [storeLinks]
  | succ count ih =>
    rw [storeLinks]
    split
    case isTrue =>
      have rest := @ih (i + 1) (stored ++ [linkHdls i]) (by simpa using fewer)
      rw [forall_mem_cons, forall_mem_cons, rest]
      simp only [HdlAccess.Ok, maxLinksPerSession, maximumLinksPerSession]
      omega
    case isFalse =>
      rw [forall_mem_cons, ih (Nat.le_succ_of_le fewer)]
      simp only [HdlAccess.Ok]
      omega

theorem SchedLink.process_ok (link : SchedLink) (task : SchedRequestV2) :
    (∀ access ∈ (link.process task).1, access.Ok) ↔ task.numLinks ≤ maxLinksPerSession := by
  rw [process, storeLinks_ok _ (Nat.le_refl 0)]
  omega

theorem SchedLink.process_stored (link : SchedLink) (task : SchedRequestV2) :
    ((link.process task).2.syncSlot link.link.wrIdx).syncLinkHdls =
      othersOf task.linkHdls task.numLinks.toNat link.linkHdl := by
  rw [process]
  dsimp only
  rw [update_self, storeLinks_snd, ← range_eq_range']
  rfl

/-- The second loop names a third handle only if two are handles of links. -/
theorem checkLinks_ok (isLink : Int → Bool) (count : Nat) :
    (∀ access ∈ (checkLinks isLink linkHdls count 0).1, access.Ok) ↔
      count ≤ maxLinksPerSession ∨ ¬IsLink isLink (linkHdls 0) ∨ ¬IsLink isLink (linkHdls 1) := by
  unfold IsLink
  match count with
  | 0 => simp [checkLinks]
  | 1 =>
    simp only [checkLinks]
    split_ifs <;> simp [HdlAccess.Ok, maxLinksPerSession, maximumLinksPerSession]
  | 2 =>
    simp only [checkLinks]
    split_ifs <;> simp [HdlAccess.Ok, maxLinksPerSession, maximumLinksPerSession]
  | count + 3 =>
    simp only [checkLinks]
    split_ifs <;> simp_all [HdlAccess.Ok, maxLinksPerSession, maximumLinksPerSession]

theorem checkLinks_snd {isLink : Int → Bool} {count i : Nat}
    (checked : (checkLinks isLink linkHdls count i).2 = true) :
    ∀ j < count, IsLink isLink (linkHdls (i + j)) := by
  induction count generalizing i with
  | zero => exact fun j below => absurd below (Nat.not_lt_zero j)
  | succ count ih =>
    rw [checkLinks] at checked
    split_ifs at checked with zero valid
    intro j below
    cases j with
    | zero => exact ⟨zero, valid⟩
    | succ j => exact Nat.add_right_comm i 1 j ▸ ih checked j (Nat.lt_of_succ_lt_succ below)

theorem othersOf_eq_nil {count : Nat} :
    othersOf linkHdls count own = [] ↔ ∀ i < count, linkHdls i = own := by
  simp only [othersOf, filter_eq_nil_iff, forall_mem_map, mem_range, decide_eq_true_eq, not_not]
  exact forall₂_congr fun _ _ => eq_comm

theorem length_othersOf_le (count : Nat) : (othersOf linkHdls count own).length ≤ count :=
  (length_filter_le _ _).trans_eq (by rw [length_map, length_range])

theorem taken_some {req : SchedRequest} {link : Option SchedLink} {found : SchedLink}
    {recovery : Recovery} (taken : req.taken link = some (found, recovery)) :
    link = some found ∧ found.linkHdl = req.linkHdl := by
  unfold SchedRequest.taken at taken
  split at taken
  · cases taken
  · split at taken
    · cases taken
    · rename_i link same
      cases parent : link.parent with
      | none => simp [parent] at taken
      | some other =>
        simp only [parent] at taken
        split_ifs at taken
        cases taken
        exact ⟨rfl, not_not.mp same⟩

/-! ## The two versions -/

theorem scheduleRequest_stores_iff (link : Option SchedLink) (payload : SchedRequestV2)
    (req : SchedRequest) :
    Stores link (fun _ => []) (scheduleRequest link payload req) ↔
      PayloadFits link payload req := by
  unfold Stores scheduleRequest PayloadFits
  cases taken : req.taken link with
  | none => simp
  | some found =>
    obtain ⟨found, recovery⟩ := found
    obtain ⟨rfl, own⟩ := taken_some taken
    have stored : ((found.unflushed.process (payload.copy req recovery)).2.syncSlot
        found.link.wrIdx).syncLinkHdls = [] ↔
          ∀ i < payload.numLinks.toNat, payload.linkHdls i = req.linkHdl := by
      rw [← own, ← othersOf_eq_nil]
      exact Eq.congr_left (SchedLink.process_stored _ _)
    rw [or_iff_right (by simp), ← stored]
    refine and_congr (SchedLink.process_ok _ _) ⟨fun all => (all _ _ rfl rfl).1, ?_⟩
    rintro none before after isBefore isAfter
    cases isBefore
    cases isAfter
    exact ⟨none, Nat.zero_le _⟩

theorem scheduleRequestV2_stores_iff (isLink : Int → Bool) (link : Option SchedLink)
    (payload req : SchedRequestV2) :
    Stores link req.others (scheduleRequestV2 isLink link payload req) ↔
      RequestFits isLink link req := by
  unfold Stores scheduleRequestV2 RequestFits SchedRequestV2.others
  cases taken : req.taken link with
  | none => simp
  | some found =>
    obtain ⟨rfl, own⟩ := taken_some taken
    rw [or_iff_right (by simp)]
    dsimp only
    split
    case isFalse async =>
      refine iff_of_true ⟨?_, ?_⟩ (.inl async)
      · exact (SchedLink.process_ok _ _).mpr (show (0 : Int) ≤ 2 by decide)
      · rintro before after isBefore isAfter
        cases isBefore
        cases isAfter
        exact ⟨SchedLink.process_stored _ _, Nat.zero_le _⟩
    case isTrue sync =>
      have checks := @checkLinks_ok req.linkHdls isLink req.numLinks.toNat
      have few : req.numLinks ≤ maxLinksPerSession ↔ req.numLinks.toNat ≤ maxLinksPerSession := by
        omega
      rw [or_iff_right (not_not.mpr sync), few]
      split
      case isFalse => exact ⟨fun stores => checks.mp stores.1, fun fits =>
        ⟨checks.mpr fits, fun _ _ _ refused => nomatch refused⟩⟩
      case isTrue checked =>
        have valid := checkLinks_snd checked
        refine ⟨fun stores => ?_, fun fits => ?_⟩
        · have inside := (SchedLink.process_ok _ _).mp (forall_mem_append.mp stores.1).2
          exact .inl (few.mp inside)
        · have atMost : req.numLinks.toNat ≤ maxLinksPerSession := by
            by_contra more
            unfold maxLinksPerSession at more
            exact (fits.resolve_left more).elim (· (valid 0 (by omega))) (· (valid 1 (by omega)))
          refine ⟨forall_mem_append.mpr
            ⟨checks.mpr fits, (SchedLink.process_ok _ _).mpr (few.mpr atMost)⟩, ?_⟩
          rintro before after isBefore isAfter
          cases isBefore
          cases isAfter
          refine ⟨(SchedLink.process_stored _ _).trans ?_,
            (length_othersOf_le _).trans (atMost.trans (by decide))⟩
          unfold othersOf
          congr 1
          exact map_congr_left fun i inRange => if_pos (mem_range.mp inRange)

/-- Each version keeps to its arrays on exactly the requests that fit it. -/
theorem schedule_stores_iff (isLink : Int → Bool) (link : Option SchedLink)
    (payload req : SchedRequestV2) :
    (Stores link (fun _ => []) (scheduleRequest link payload req.toSchedRequest) ↔
        PayloadFits link payload req.toSchedRequest) ∧
      (Stores link req.others (scheduleRequestV2 isLink link payload req) ↔
        RequestFits isLink link req) :=
  ⟨scheduleRequest_stores_iff link payload req.toSchedRequest,
    scheduleRequestV2_stores_iff isLink link payload req⟩

/-- A request that names three links. -/
def threeLinks : SchedRequestV2 := ⟨⟨1, false, camReqMgrSyncModeSync, 0, 1⟩, 3, fun _ => 1, 0⟩

theorem not_schedule_stores :
    ¬∀ (isLink : Int → Bool) (link : Option SchedLink) (payload req : SchedRequestV2),
      Stores link (fun _ => []) (scheduleRequest link payload req.toSchedRequest) ∧
        Stores link req.others (scheduleRequestV2 isLink link payload req) := by
  intro stores
  have third := (stores (fun _ => true)
    (some ⟨1, some .auto, .reserved, fun _ => ⟨0, 0, []⟩, -1, [], 0⟩) threeLinks threeLinks).2.1
    (.linkHdls 2) (by decide)
  exact absurd third (show ¬2 < 2 by decide)

end Sm8650.Crm
