import Sm8650.MgmtReo.WaitCounts

/-!
# Management frame reordering: the estimate of the wait counts

For each other link the algorithm estimates how many frames an incoming frame has to wait for,
from the last frame of the link at the MAC hardware, the last ones that the firmware has
consumed and forwarded, and the last one that the host has seen.

The history of a link is the sequence of its frames with the numbers of them that have reached
each stage. Packet counters and time stamps are the true numbers cut off at their widths.

Source: `wlan_mgmt_txrx_rx_reo.c`.
-/

namespace Sm8650.MgmtReo

open Data List Function BitVec Bool

/-! ## The code -/

/-- The snapshots of a link. -/
structure Snapshots where
  macHw : Snapshot
  fwForwarded : Snapshot
  fwConsumed : Snapshot
  host : Snapshot

def Snapshot.invalidate (snapshot : Snapshot) : Snapshot := { snapshot with valid := false }

/-- Time stamp and counter are at or after the ones of the other snapshot. -/
def Snapshot.gte (first second : Snapshot) : Bool :=
  compareGlobalTimestampsGte first.globalTimestamp second.globalTimestamp &&
    comparePktCtrsGte first.mgmtPktCtr second.mgmtPktCtr

/-- The tests of `mgmt_rx_reo_invalidate_stale_snapshots` for a snapshot of the firmware. -/
def invalidateStaleFw (macHw host fw : Snapshot) : Snapshot :=
  if fw.valid then
    let fw := if macHw.gte fw then fw else fw.invalidate
    if (host.valid && fw.valid) &&
        (compareGlobalTimestampsGte host.globalTimestamp fw.globalTimestamp !=
          comparePktCtrsGte host.mgmtPktCtr fw.mgmtPktCtr) then
      fw.invalidate
    else fw
  else fw

/-- `mgmt_rx_reo_invalidate_stale_snapshots`. -/
def invalidateStaleSnapshots (snapshots : Snapshots) : Snapshots :=
  if snapshots.macHw.valid then
    let host :=
      if snapshots.host.valid && !snapshots.macHw.gte snapshots.host then
        snapshots.host.invalidate
      else snapshots.host
    { snapshots with
      host := host
      fwForwarded := invalidateStaleFw snapshots.macHw host snapshots.fwForwarded
      fwConsumed := invalidateStaleFw snapshots.macHw host snapshots.fwConsumed }
  else snapshots

/-- `mgmt_rx_reo_snapshots_check_sanity`. -/
def snapshotsCheckSanity (snapshots : Snapshots) : Bool :=
  let { macHw, fwForwarded, fwConsumed, host } := snapshots
  if !macHw.valid then !(fwForwarded.valid || fwConsumed.valid || host.valid)
  else if !fwForwarded.valid && !fwConsumed.valid then !host.valid
  else
    (!fwForwarded.valid || macHw.gte fwForwarded) &&
    (!fwConsumed.valid || macHw.gte fwConsumed) &&
    (!host.valid ||
      (macHw.gte host &&
      (!(fwForwarded.valid && !fwConsumed.valid) || fwForwarded.gte host) &&
      (!(fwConsumed.valid && !fwForwarded.valid) || fwConsumed.gte host) &&
      (!(fwForwarded.valid && fwConsumed.valid) ||
        ((compareGlobalTimestampsGte fwConsumed.globalTimestamp host.globalTimestamp ||
          compareGlobalTimestampsGte fwForwarded.globalTimestamp host.globalTimestamp) &&
        (comparePktCtrsGte fwConsumed.mgmtPktCtr host.mgmtPktCtr ||
          comparePktCtrsGte fwForwarded.mgmtPktCtr host.mgmtPktCtr)))))

/-- A snapshot of the firmware stays valid if it is not ahead of the one of the MAC hardware and
in the same order to the one of the host by time stamps and by counters. -/
theorem invalidateStaleFw_eq {macHw host fw : Snapshot}
    (behind : fw.valid = true → macHw.gte fw = true)
    (sameOrder : host.valid = true → fw.valid = true →
      compareGlobalTimestampsGte host.globalTimestamp fw.globalTimestamp =
        comparePktCtrsGte host.mgmtPktCtr fw.mgmtPktCtr) :
    invalidateStaleFw macHw host fw = fw := by
  unfold invalidateStaleFw
  split
  · rename_i valid
    dsimp only
    rw [if_pos (behind valid)]
    split
    · rename_i different
      obtain ⟨valids, different⟩ := and_eq_true_iff.mp different
      obtain ⟨hostValid, _⟩ := and_eq_true_iff.mp valids
      exact absurd (sameOrder hostValid valid) (bne_iff_ne.mp different)
    · rfl
  · rfl

/-- The sanity checks pass if the MAC hardware is ahead of every valid snapshot and one of the
firmware is ahead of the one of the host. -/
theorem snapshotsCheckSanity_of_ahead {snapshots : Snapshots} (valid : snapshots.macHw.valid = true)
    (fwForwarded : snapshots.fwForwarded.valid = true →
      snapshots.macHw.gte snapshots.fwForwarded = true)
    (fwConsumed : snapshots.fwConsumed.valid = true →
      snapshots.macHw.gte snapshots.fwConsumed = true)
    (host : snapshots.host.valid = true → snapshots.macHw.gte snapshots.host = true ∧
      ((snapshots.fwForwarded.valid = true ∧ snapshots.fwForwarded.gte snapshots.host = true) ∨
        (snapshots.fwConsumed.valid = true ∧ snapshots.fwConsumed.gte snapshots.host = true))) :
    snapshotsCheckSanity snapshots = true := by
  obtain ⟨macHw, fwF, fwC, hostSs⟩ := snapshots
  dsimp only at valid fwForwarded fwConsumed host
  unfold snapshotsCheckSanity
  dsimp only
  cases hostValid : hostSs.valid with
  | false =>
    cases forwardedValid : fwF.valid <;> cases consumedValid : fwC.valid <;>
      simp only [valid, fwForwarded, fwConsumed, forwardedValid, consumedValid, Bool.not_true,
        Bool.not_false, Bool.false_eq_true, if_false, if_true, Bool.true_or, Bool.false_or,
        Bool.and_false, Bool.and_true]
  | true =>
    obtain ⟨ahead, forwardedAhead | consumedAhead⟩ := host hostValid
    · obtain ⟨forwardedValid, gte⟩ := forwardedAhead
      have parts := and_eq_true_iff.mp gte
      cases consumedValid : fwC.valid <;> simp [*]
    · obtain ⟨consumedValid, gte⟩ := consumedAhead
      have parts := and_eq_true_iff.mp gte
      cases forwardedValid : fwF.valid <;> simp [*]

/-- Why a wait count is not computed. -/
inductive EstimateError
  | snapshotSanityFailure
  | asserted
  | failed
deriving DecidableEq

/-- `qdf_assert_always`. -/
def assertNonneg (framesPending : Int) : Except EstimateError Int :=
  if framesPending ≥ 0 then .ok framesPending else .error .asserted

/-- The estimate with the last frame that the firmware has consumed. -/
def consumedEstimate (snapshots : Snapshots) (ts : BitVec 32) (framesPending : Int) :
    Except EstimateError Int := do
  let { fwForwarded, fwConsumed, host, .. } := snapshots
  if fwConsumed.valid && compareGlobalTimestampsGte fwConsumed.globalTimestamp ts then
    let framesPending ← assertNonneg (subtractPktCtrs fwConsumed.mgmtPktCtr host.mgmtPktCtr - 1)
    if fwForwarded.valid && !compareGlobalTimestampsGte fwForwarded.globalTimestamp ts then
      return max 0 (subtractPktCtrs fwForwarded.mgmtPktCtr host.mgmtPktCtr)
    return framesPending
  return framesPending

/-- The estimate with the last frame that the firmware has forwarded. -/
def forwardedEstimate (snapshots : Snapshots) (ts : BitVec 32) (framesPending : Int) :
    Except EstimateError Int := do
  let { fwForwarded, host, .. } := snapshots
  if fwForwarded.valid && compareGlobalTimestampsGte fwForwarded.globalTimestamp ts then
    let deltaFwdHost ← assertNonneg (subtractPktCtrs fwForwarded.mgmtPktCtr host.mgmtPktCtr - 1)
    assertNonneg (min framesPending deltaFwdHost)
  else
    return framesPending

/-- The estimate where the last frame at the MAC hardware is not before the incoming one. -/
def framesPendingBehind (snapshots : Snapshots) (ts : BitVec 32) (framesPending : Int) :
    Except EstimateError Int := do
  let framesPending ← assertNonneg (framesPending - 1)
  let framesPending ← consumedEstimate snapshots ts framesPending
  forwardedEstimate snapshots ts framesPending

/-- `frames_pending` of another link. -/
def framesPending (snapshots : Snapshots) (ts : BitVec 32) : Except EstimateError Int := do
  let { macHw, host, .. } := snapshots
  if !macHw.valid then return 0
  if subtractPktCtrs macHw.mgmtPktCtr host.mgmtPktCtr = 0 then return 0
  if compareGlobalTimestampsGte host.globalTimestamp ts then return 0
  let framesPending ← assertNonneg (subtractPktCtrs macHw.mgmtPktCtr host.mgmtPktCtr)
  if framesPending ≠ 0 && compareGlobalTimestampsGte macHw.globalTimestamp ts then
    framesPendingBehind snapshots ts framesPending
  else return framesPending

/-- What the algorithm finds of a link: nothing to wait for, as the link is not valid, has no
pdev or its context is not complete; no context; a snapshot that cannot be read; or the
snapshots. -/
inductive LinkView
  | absent
  | unreadable
  | active (snapshots : Snapshots)

/-- The round of `wlan_mgmt_rx_reo_algo_calculate_wait_count` for a link. -/
def linkWaitCount (own : Bool) (view : LinkView) (ts : BitVec 32) :
    Except EstimateError (BitVec 32) :=
  match view with
  | .absent => .ok 0
  | .unreadable => .error .failed
  | .active snapshots => do
      let snapshots := invalidateStaleSnapshots snapshots
      if snapshotsCheckSanity snapshots = false then throw .snapshotSanityFailure
      if own then return 0
      if snapshots.macHw.valid && !snapshots.host.valid then return allOnes 32
      let framesPending ← framesPending snapshots ts
      let framesPending ← assertNonneg framesPending
      return BitVec.ofInt 32 framesPending

/-- Set the count of a link and add it to the total. -/
def WaitCount.add (waitCount : WaitCount) (link : Link) (count : BitVec 32) : WaitCount :=
  { perLinkCount := update waitCount.perLinkCount link count
    totalCount := waitCount.totalCount + count.setWidth 64 }

/-- `wlan_mgmt_rx_reo_algo_calculate_wait_count`. -/
def algoCalculateWaitCount (inFrameLink : Link) (views : Link → LinkView) (ts : BitVec 32) :
    Except EstimateError WaitCount :=
  (List.finRange maxMloLinks).foldlM
    (fun waitCount link => do
      let count ← linkWaitCount (link == inFrameLink) (views link) ts
      return waitCount.add link count)
    { perLinkCount := fun _ => 0, totalCount := 0 }

theorem assertNonneg_of_nonneg {framesPending : Int} (nonneg : 0 ≤ framesPending) :
    assertNonneg framesPending = .ok framesPending :=
  if_pos nonneg

/-! ## The history of a link -/

/-- The last number below a bound that passes. -/
def lastBelow (passes : Nat → Bool) : Nat → Option Nat
  | 0 => none
  | bound + 1 => if passes bound then some bound else lastBelow passes bound

variable {passes : Nat → Bool}

theorem mem_lastBelow {bound i : Nat} (last : i ∈ lastBelow passes bound) :
    i < bound ∧ passes i = true ∧ ∀ j < bound, passes j = true → j ≤ i := by
  induction bound with
  | zero => cases last
  | succ bound ih =>
    rw [lastBelow] at last
    split at last
    · rename_i passed
      obtain rfl := Option.some.inj last
      exact ⟨Nat.lt_succ_self _, passed, fun j below _ => Nat.le_of_lt_succ below⟩
    · rename_i notPassed
      obtain ⟨below, passed, all⟩ := ih last
      refine ⟨Nat.lt_succ_of_lt below, passed, fun j below passed => ?_⟩
      rcases Nat.eq_or_lt_of_le (Nat.le_of_lt_succ below) with rfl | below
      · exact absurd passed notPassed
      · exact all j below passed

theorem not_of_lastBelow_eq_none {bound : Nat} (noneLast : lastBelow passes bound = none)
    : ∀ j < bound, ¬passes j = true := by
  induction bound with
  | zero => exact nofun
  | succ bound ih =>
    rw [lastBelow] at noneLast
    split at noneLast
    · cases noneLast
    · rename_i notPassed
      intro j below
      rcases Nat.eq_or_lt_of_le (Nat.le_of_lt_succ below) with rfl | below
      · exact notPassed
      · exact ih noneLast j below

theorem lastBelow_all {bound : Nat} (some : 0 < bound) :
    lastBelow (fun _ => true) bound = Option.some (bound - 1) := by
  obtain ⟨last, rfl⟩ := Nat.exists_eq_succ_of_ne_zero some.ne'
  rfl

theorem exists_mem_lastBelow {bound i : Nat} (below : i < bound) (passed : passes i = true)
    : ∃ last ∈ lastBelow passes bound, i ≤ last := by
  cases isLast : lastBelow passes bound with
  | none => exact absurd passed (not_of_lastBelow_eq_none isLast i below)
  | some last => exact ⟨last, rfl, (mem_lastBelow isLast).2.2 i below passed⟩

/-- The frames of a link in the order of their counters: their time stamps, which of them are
for the host, and how many of them have reached the host, the firmware when each of its two
snapshots is read, and the MAC hardware. -/
structure History where
  firstCtr : Nat
  time : Nat → Nat
  forwarded : Nat → Bool
  host : Nat
  atConsumed : Nat
  atForwarded : Nat
  macHw : Nat
  increasing : ∀ {i j : Nat}, i < j → j < macHw → time i < time j
  host_le : host ≤ atConsumed
  atConsumed_le : atConsumed ≤ atForwarded
  atForwarded_le : atForwarded ≤ macHw

namespace History

/-- The snapshot of a frame. -/
def snapshot (history : History) (i : Nat) : Snapshot :=
  { valid := true
    mgmtPktCtr := BitVec.ofNat 16 (history.firstCtr + i)
    globalTimestamp := BitVec.ofNat 32 (history.time i) }

/-- The snapshot is the one of the frame, or not valid if there is none. -/
def Shows (history : History) (snapshot : Snapshot) : Option Nat → Prop
  | some i => snapshot = history.snapshot i
  | none => snapshot.valid = false

/-- The last frames that have reached the host, been consumed and been forwarded. -/
def lastHost (history : History) : Option Nat := lastBelow (fun _ => true) history.host

def lastConsumed (history : History) : Option Nat :=
  lastBelow (fun i => !history.forwarded i) history.atConsumed

def lastForwarded (history : History) : Option Nat :=
  lastBelow history.forwarded history.atForwarded

def lastMacHw (history : History) : Option Nat := lastBelow (fun _ => true) history.macHw

/-- A snapshot of the frame, if there is one. -/
def snapshotOf (history : History) : Option Nat → Snapshot
  | some i => history.snapshot i
  | none => { valid := false, mgmtPktCtr := 0, globalTimestamp := 0 }

/-- The snapshots of the last frames. -/
def snapshots (history : History) : Snapshots :=
  { macHw := history.snapshotOf history.lastMacHw
    fwForwarded := history.snapshotOf history.lastForwarded
    fwConsumed := history.snapshotOf history.lastConsumed
    host := history.snapshotOf history.lastHost }

/-- Each snapshot is the one of the last frame that has reached its stage. -/
structure Shown (history : History) (snapshots : Snapshots) : Prop where
  macHw : history.Shows snapshots.macHw history.lastMacHw
  fwForwarded : history.Shows snapshots.fwForwarded history.lastForwarded
  fwConsumed : history.Shows snapshots.fwConsumed history.lastConsumed
  host : history.Shows snapshots.host history.lastHost

/-- From the oldest frame that is in a snapshot or that the host has not seen, the counters are
within half of their range, and the time stamps are so together with the one of the incoming
frame. -/
structure Near (history : History) (oldest base t : Nat) : Prop where
  host : ∀ i ∈ history.lastHost, oldest ≤ i
  consumed : ∀ i ∈ history.lastConsumed, oldest ≤ i
  forwarded : ∀ i ∈ history.lastForwarded, oldest ≤ i
  unseen : oldest ≤ history.host
  counters : history.macHw ≤ oldest + 2 ^ 15
  times : ∀ i, oldest ≤ i → i < history.macHw → base ≤ history.time i ∧
    history.time i < base + 2 ^ 31
  time : base ≤ t ∧ t < base + 2 ^ 31

/-- The frames before the incoming one that the host is to see and has not seen. -/
def needed (history : History) (t : Nat) : Finset Nat :=
  (Finset.Ico history.host history.macHw).filter fun i =>
    history.forwarded i ∧ history.time i < t

/-- The count covers the frames that are needed and no more than the ones between the host and
the MAC hardware. -/
structure Suffices (history : History) (t : Nat) (count : Int) : Prop where
  enough : (history.needed t).card ≤ count
  few : count ≤ history.macHw - history.host

/-- The count of a link covers the frames that are needed. It is the largest count where the
host has seen no frame of the link but the MAC hardware has, and otherwise no more than the
frames between the two. -/
structure Counts (history : History) (t : Nat) (count : BitVec 32) : Prop where
  enough : (history.needed t).card ≤ count.toNat
  few : 0 < history.host ∨ history.macHw = 0 → count.toNat ≤ history.macHw - history.host
  most : history.host = 0 → 0 < history.macHw → count = allOnes 32

/-! ## The order of the frames -/

variable {history : History} {snapshots : Snapshots} {oldest base t : Nat}

theorem time_le_iff {i j : Nat} (iReached : i < history.macHw) (jReached : j < history.macHw) :
    history.time j ≤ history.time i ↔ j ≤ i := by
  constructor
  · intro notLater
    by_contra later
    exact absurd (history.increasing (Nat.lt_of_not_le later) jReached) (by omega)
  · intro notLater
    rcases Nat.eq_or_lt_of_le notLater with rfl | before
    · exact Nat.le_refl _
    · exact (history.increasing before iReached).le

namespace Near

variable (near : history.Near oldest base t) {i j : Nat} (iRecent : oldest ≤ i)
  (iReached : i < history.macHw) (jRecent : oldest ≤ j) (jReached : j < history.macHw)

include near iRecent iReached

theorem time_gte : compareGlobalTimestampsGte (history.snapshot i).globalTimestamp
    (BitVec.ofNat 32 t) = decide (t ≤ history.time i) :=
  @Serial.gte_ofNat 32 base _ _ (near.times i iRecent iReached).1
    (near.times i iRecent iReached).2 near.time.1 near.time.2

include jRecent jReached

theorem times_gte : compareGlobalTimestampsGte (history.snapshot i).globalTimestamp
    (history.snapshot j).globalTimestamp = decide (j ≤ i) := by
  refine (@Serial.gte_ofNat 32 base _ _ (near.times i iRecent iReached).1
    (near.times i iRecent iReached).2 (near.times j jRecent jReached).1
    (near.times j jRecent jReached).2).trans ?_
  exact decide_eq_decide.mpr (time_le_iff iReached jReached)

theorem ctrs_gte : comparePktCtrsGte (history.snapshot i).mgmtPktCtr
    (history.snapshot j).mgmtPktCtr = decide (j ≤ i) := by
  have counters := near.counters
  refine (@Serial.gte_ofNat 16 (history.firstCtr + oldest) _ _ (by omega) ?_ (by omega) ?_).trans
    (decide_eq_decide.mpr (by omega))
  · change _ < _ + 2 ^ 15
    omega
  · change _ < _ + 2 ^ 15
    omega

theorem snapshot_gte : (history.snapshot i).gte (history.snapshot j) = decide (j ≤ i) := by
  rw [Snapshot.gte, near.times_gte iRecent iReached jRecent jReached,
    near.ctrs_gte iRecent iReached jRecent jReached, Bool.and_self]

theorem subtract_ctrs : subtractPktCtrs (history.snapshot i).mgmtPktCtr
    (history.snapshot j).mgmtPktCtr = (i : Int) - j := by
  have counters := near.counters
  have half : Serial.half 16 = 2 ^ 15 := rfl
  unfold subtractPktCtrs
  rcases Nat.le_total j i with notBefore | before
  · have distance : ((history.snapshot i).mgmtPktCtr - (history.snapshot j).mgmtPktCtr).toNat =
        i - j :=
      (Serial.toNat_ofNat_sub_ofNat (by omega) (by omega)).trans (by omega)
    omega
  · have distance : ((history.snapshot j).mgmtPktCtr - (history.snapshot i).mgmtPktCtr).toNat =
        j - i :=
      (Serial.toNat_ofNat_sub_ofNat (by omega) (by omega)).trans (by omega)
    have wrapped : ((history.snapshot i).mgmtPktCtr - (history.snapshot j).mgmtPktCtr).toNat =
        (2 ^ 16 - (j - i)) % 2 ^ 16 := by
      rw [Serial.toNat_sub_eq (history.snapshot i).mgmtPktCtr, distance, BitVec.sub_self]
      rfl
    split <;> omega

end Near

/-! ## The snapshots pass the checks -/

theorem shows_snapshotOf (history : History) (last : Option Nat) :
    history.Shows (history.snapshotOf last) last := by
  cases last <;> rfl

theorem shown_snapshots (history : History) : history.Shown history.snapshots :=
  ⟨shows_snapshotOf _ _, shows_snapshotOf _ _, shows_snapshotOf _ _, shows_snapshotOf _ _⟩

theorem Shows.of_valid {snapshot : Snapshot} {last : Option Nat}
    (shows : history.Shows snapshot last) (valid : snapshot.valid = true) :
    ∃ i ∈ last, snapshot = history.snapshot i := by
  cases last with
  | none => rw [shows] at valid; cases valid
  | some i => exact ⟨i, rfl, shows⟩

theorem Shown.macHw_eq (shown : history.Shown snapshots) (reached : 0 < history.macHw) :
    snapshots.macHw = history.snapshot (history.macHw - 1) := by
  have shows := shown.macHw
  rw [lastMacHw, lastBelow_all reached] at shows
  exact shows

theorem Shown.host_eq (shown : history.Shown snapshots) (reached : 0 < history.host) :
    snapshots.host = history.snapshot (history.host - 1) := by
  have shows := shown.host
  rw [lastHost, lastBelow_all reached] at shows
  exact shows

/-- The snapshot is the one of a frame that is not too old. -/
def Recent (history : History) (oldest : Nat) (snapshot : Snapshot) : Prop :=
  ∃ i, oldest ≤ i ∧ i < history.macHw ∧ snapshot = history.snapshot i

namespace Near

variable (near : history.Near oldest base t) (shown : history.Shown snapshots)

include near

/-- A snapshot has the same order to another one by time stamps and by counters. -/
theorem same_order {first second : Snapshot} (firstRecent : history.Recent oldest first)
    (secondRecent : history.Recent oldest second) :
    compareGlobalTimestampsGte first.globalTimestamp second.globalTimestamp =
      comparePktCtrsGte first.mgmtPktCtr second.mgmtPktCtr := by
  obtain ⟨i, iRecent, iReached, rfl⟩ := firstRecent
  obtain ⟨j, jRecent, jReached, rfl⟩ := secondRecent
  rw [near.times_gte iRecent iReached jRecent jReached,
    near.ctrs_gte iRecent iReached jRecent jReached]

include shown

theorem recent_host (valid : snapshots.host.valid = true) :
    history.Recent oldest snapshots.host := by
  obtain ⟨i, last, same⟩ := shown.host.of_valid valid
  obtain ⟨below, _⟩ := mem_lastBelow last
  exact ⟨i, near.host i last, below.trans_le (history.host_le.trans
    (history.atConsumed_le.trans history.atForwarded_le)), same⟩

theorem recent_fwConsumed (valid : snapshots.fwConsumed.valid = true) :
    history.Recent oldest snapshots.fwConsumed := by
  obtain ⟨i, last, same⟩ := shown.fwConsumed.of_valid valid
  obtain ⟨below, _⟩ := mem_lastBelow last
  exact ⟨i, near.consumed i last,
    below.trans_le (history.atConsumed_le.trans history.atForwarded_le), same⟩

theorem recent_fwForwarded (valid : snapshots.fwForwarded.valid = true) :
    history.Recent oldest snapshots.fwForwarded := by
  obtain ⟨i, last, same⟩ := shown.fwForwarded.of_valid valid
  obtain ⟨below, _⟩ := mem_lastBelow last
  exact ⟨i, near.forwarded i last, below.trans_le history.atForwarded_le, same⟩

theorem macHw_gte {snapshot : Snapshot} (recent : history.Recent oldest snapshot) :
    snapshots.macHw.gte snapshot = true := by
  obtain ⟨i, iRecent, iReached, rfl⟩ := recent
  rw [shown.macHw_eq (by omega), near.snapshot_gte (by omega) (by omega) iRecent iReached]
  exact decide_eq_true (by omega)

/-- No snapshot is stale. -/
theorem invalidateStaleSnapshots_eq : invalidateStaleSnapshots snapshots = snapshots := by
  unfold invalidateStaleSnapshots
  split
  · have host : (if snapshots.host.valid && !snapshots.macHw.gte snapshots.host then
        snapshots.host.invalidate else snapshots.host) = snapshots.host := by
      refine if_neg fun stale => ?_
      obtain ⟨valid, ahead⟩ := and_eq_true_iff.mp stale
      rw [near.macHw_gte shown (near.recent_host shown valid)] at ahead
      cases ahead
    dsimp only
    rw [host, invalidateStaleFw_eq, invalidateStaleFw_eq]
    · exact fun valid => near.macHw_gte shown (near.recent_fwConsumed shown valid)
    · exact fun hostValid valid =>
        near.same_order (near.recent_host shown hostValid) (near.recent_fwConsumed shown valid)
    · exact fun valid => near.macHw_gte shown (near.recent_fwForwarded shown valid)
    · exact fun hostValid valid =>
        near.same_order (near.recent_host shown hostValid) (near.recent_fwForwarded shown valid)
  · rfl

/-- The firmware has a snapshot that is not behind the one of the host. -/
theorem fw_gte_host (valid : snapshots.host.valid = true) :
    (snapshots.fwForwarded.valid = true ∧ snapshots.fwForwarded.gte snapshots.host = true) ∨
      (snapshots.fwConsumed.valid = true ∧ snapshots.fwConsumed.gte snapshots.host = true) := by
  obtain ⟨i, last, same⟩ := shown.host.of_valid valid
  obtain ⟨below, _⟩ := mem_lastBelow last
  have iRecent := near.host i last
  have ordered := history.host_le
  have orderedFw := history.atConsumed_le
  have orderedMac := history.atForwarded_le
  rw [same]
  cases passed : history.forwarded i with
  | true =>
    obtain ⟨f, isLast, notBefore⟩ := exists_mem_lastBelow
      (below.trans_le (ordered.trans orderedFw)) passed
    obtain ⟨fBelow, _⟩ := mem_lastBelow isLast
    have shows := shown.fwForwarded
    rw [lastForwarded, isLast] at shows
    refine Or.inl ⟨shows ▸ rfl, ?_⟩
    rw [shows, near.snapshot_gte (near.forwarded f isLast) (by omega) iRecent (by omega)]
    exact decide_eq_true notBefore
  | false =>
    obtain ⟨c, isLast, notBefore⟩ := @exists_mem_lastBelow (fun i => !history.forwarded i) _ i
      (below.trans_le ordered) (by rw [passed]; rfl)
    obtain ⟨cBelow, _⟩ := mem_lastBelow isLast
    have shows := shown.fwConsumed
    rw [lastConsumed, isLast] at shows
    refine Or.inr ⟨shows ▸ rfl, ?_⟩
    rw [shows, near.snapshot_gte (near.consumed c isLast) (by omega) iRecent (by omega)]
    exact decide_eq_true notBefore

theorem snapshotsCheckSanity_shown : snapshotsCheckSanity snapshots = true := by
  rcases Nat.eq_zero_or_pos history.macHw with noFrame | reached
  · have ordered := history.host_le
    have orderedFw := history.atConsumed_le
    have orderedMac := history.atForwarded_le
    obtain ⟨macHw, fwForwarded, fwConsumed, host⟩ := shown
    rw [lastMacHw, noFrame] at macHw
    rw [lastForwarded, show history.atForwarded = 0 by omega] at fwForwarded
    rw [lastConsumed, show history.atConsumed = 0 by omega] at fwConsumed
    rw [lastHost, show history.host = 0 by omega] at host
    unfold snapshotsCheckSanity
    dsimp only
    rw [macHw, fwForwarded, fwConsumed, host]
    rfl
  · refine snapshotsCheckSanity_of_ahead ?_ (fun valid => ?_) (fun valid => ?_) fun valid => ⟨?_, ?_⟩
    · rw [shown.macHw_eq reached]
      rfl
    · exact near.macHw_gte shown (near.recent_fwForwarded shown valid)
    · exact near.macHw_gte shown (near.recent_fwConsumed shown valid)
    · exact near.macHw_gte shown (near.recent_host shown valid)
    · exact near.fw_gte_host shown valid

end Near

/-! ## The estimates suffice -/

theorem host_le_macHw (history : History) : history.host ≤ history.macHw :=
  history.host_le.trans (history.atConsumed_le.trans history.atForwarded_le)

theorem mem_needed {i : Nat} : i ∈ history.needed t ↔
    (history.host ≤ i ∧ i < history.macHw) ∧ history.forwarded i = true ∧ history.time i < t := by
  rw [needed, Finset.mem_filter, Finset.mem_Ico]

/-- The frames up to a place suffice if none that is needed comes behind it. -/
theorem suffices_of_before {place : Nat} (notBehind : history.host ≤ place)
    (reached : place ≤ history.macHw) (before : ∀ i ∈ history.needed t, i < place) :
    history.Suffices t ((place : Int) - history.host) where
  enough := by
    have inside : history.needed t ⊆ Finset.Ico history.host place := fun i isNeeded =>
      Finset.mem_Ico.mpr ⟨(mem_needed.mp isNeeded).1.1, before i isNeeded⟩
    have few := Finset.card_le_card inside
    rw [Nat.card_Ico] at few
    omega
  few := by omega

theorem Suffices.nonneg {count : Int} (sufficient : history.Suffices t count) : 0 ≤ count :=
  (Int.natCast_nonneg _).trans sufficient.enough

theorem Suffices.min {count count' : Int} (sufficient : history.Suffices t count)
    (sufficient' : history.Suffices t count') : history.Suffices t (min count count') :=
  ⟨le_min sufficient.enough sufficient'.enough, (min_le_left _ _).trans sufficient.few⟩

/-- No frame from the one that is not before the incoming frame is needed. -/
theorem before_of_time_le {place i : Nat} (reached : place < history.macHw)
    (late : t ≤ history.time place) (isNeeded : i ∈ history.needed t) : i < place := by
  obtain ⟨⟨_, iReached⟩, _, early⟩ := mem_needed.mp isNeeded
  by_contra notBefore
  have ordered := (time_le_iff iReached reached).mpr (Nat.le_of_not_lt notBefore)
  omega

namespace Near

variable (near : history.Near oldest base t) (shown : history.Shown snapshots)
  (seen : 0 < history.host) (early : history.time (history.host - 1) < t)

include near shown seen early

/-- A snapshot that is not before the incoming frame is ahead of the one of the host. -/
theorem subtract_host {i : Nat} (iRecent : oldest ≤ i) (iReached : i < history.macHw) :
    subtractPktCtrs (history.snapshot i).mgmtPktCtr snapshots.host.mgmtPktCtr - 1 =
        (i : Int) - history.host ∧
      (t ≤ history.time i → history.host ≤ i) := by
  have hostReached := history.host_le_macHw
  refine ⟨?_, fun late => ?_⟩
  · rw [shown.host_eq seen,
      near.subtract_ctrs iRecent iReached (near.host _ (lastBelow_all seen)) (by omega)]
    omega
  · by_contra notBehind
    have ordered := (@time_le_iff history (history.host - 1) i (by omega) iReached).mpr (by omega)
    omega

theorem consumedEstimate_suffices {count : Int} (sufficient : history.Suffices t count) :
    ∃ count', consumedEstimate snapshots (BitVec.ofNat 32 t) count = .ok count' ∧
      history.Suffices t count' := by
  have orderedFw := history.atConsumed_le
  have orderedMac := history.atForwarded_le
  unfold consumedEstimate
  dsimp only
  split
  · rename_i condition
    obtain ⟨valid, late⟩ := and_eq_true_iff.mp condition
    obtain ⟨c, isLast, same⟩ := shown.fwConsumed.of_valid valid
    have cRecent := near.consumed c isLast
    obtain ⟨below, _⟩ := mem_lastBelow isLast
    rw [same, near.time_gte cRecent (by omega), decide_eq_true_eq] at late
    obtain ⟨difference, ahead⟩ :=
      near.subtract_host shown seen early cRecent (show c < history.macHw by omega)
    have notBehind := ahead late
    rw [same, difference, assertNonneg_of_nonneg (by omega)]
    split
    · rename_i condition
      obtain ⟨valid, earlyForwarded⟩ := and_eq_true_iff.mp condition
      obtain ⟨f, isLastForwarded, same⟩ := shown.fwForwarded.of_valid valid
      have fRecent := near.forwarded f isLastForwarded
      obtain ⟨fBelow, _, all⟩ := mem_lastBelow isLastForwarded
      have difference := (near.subtract_host shown seen early fRecent
        (show f < history.macHw by omega)).1
      refine ⟨_, rfl, ?_⟩
      have place : max 0 (subtractPktCtrs snapshots.fwForwarded.mgmtPktCtr
          snapshots.host.mgmtPktCtr) =
          ((max history.host (f + 1) : Nat) : Int) - history.host := by
        rw [same]
        omega
      rw [place]
      refine suffices_of_before (le_max_left _ _)
        (max_le history.host_le_macHw (by omega)) fun i isNeeded => ?_
      have before := before_of_time_le (by omega) late isNeeded
      have last := all i (by omega) (mem_needed.mp isNeeded).2.1
      exact (Nat.lt_succ_of_le last).trans_le (le_max_right _ _)
    · exact ⟨_, rfl, suffices_of_before notBehind (by omega) fun i isNeeded =>
        before_of_time_le (by omega) late isNeeded⟩
  · exact ⟨count, rfl, sufficient⟩

theorem forwardedEstimate_suffices {count : Int} (sufficient : history.Suffices t count) :
    ∃ count', forwardedEstimate snapshots (BitVec.ofNat 32 t) count = .ok count' ∧
      history.Suffices t count' := by
  have orderedMac := history.atForwarded_le
  unfold forwardedEstimate
  dsimp only
  split
  · rename_i condition
    obtain ⟨valid, late⟩ := and_eq_true_iff.mp condition
    obtain ⟨f, isLast, same⟩ := shown.fwForwarded.of_valid valid
    have fRecent := near.forwarded f isLast
    obtain ⟨below, _⟩ := mem_lastBelow isLast
    rw [same, near.time_gte fRecent (by omega), decide_eq_true_eq] at late
    obtain ⟨difference, ahead⟩ :=
      near.subtract_host shown seen early fRecent (show f < history.macHw by omega)
    have notBehind := ahead late
    have sufficient' : history.Suffices t ((f : Int) - history.host) :=
      suffices_of_before notBehind (by omega) fun i isNeeded =>
        before_of_time_le (by omega) late isNeeded
    rw [same, difference, assertNonneg_of_nonneg (by omega)]
    exact ⟨_, assertNonneg_of_nonneg (sufficient.min sufficient').nonneg, sufficient.min sufficient'⟩
  · exact ⟨count, rfl, sufficient⟩

/-- The last frame at the MAC hardware is not needed. -/
theorem framesPendingBehind_suffices (late : t ≤ history.time (history.macHw - 1)) :
    ∃ count, framesPendingBehind snapshots (BitVec.ofNat 32 t)
        ((history.macHw : Int) - history.host) = .ok count ∧ history.Suffices t count := by
  have hostReached := history.host_le_macHw
  have notBehind : history.host ≤ history.macHw - 1 := by
    by_contra last
    rw [show history.host - 1 = history.macHw - 1 by omega] at early
    omega
  have sufficient : history.Suffices t ((history.macHw : Int) - history.host - 1) := by
    have place := suffices_of_before notBehind (Nat.sub_le _ _) fun i isNeeded =>
      before_of_time_le (by omega) late isNeeded
    rwa [show (((history.macHw - 1 : Nat) : Int) - history.host) =
      (history.macHw : Int) - history.host - 1 by omega] at place
  obtain ⟨consumed, consumedRan, consumedSuffices⟩ :=
    near.consumedEstimate_suffices shown seen early sufficient
  obtain ⟨count, ran, countSuffices⟩ :=
    near.forwardedEstimate_suffices shown seen early consumedSuffices
  refine ⟨count, ?_, countSuffices⟩
  unfold framesPendingBehind
  rw [assertNonneg_of_nonneg sufficient.nonneg]
  dsimp only [bind, Except.bind]
  rw [consumedRan]
  exact ran

omit early in
theorem framesPending_suffices :
    ∃ count, framesPending snapshots (BitVec.ofNat 32 t) = .ok count ∧
      history.Suffices t count := by
  have hostReached := history.host_le_macHw
  have hostRecent := near.host _ (lastBelow_all seen)
  have macHw := shown.macHw_eq (seen.trans_le hostReached)
  have distance : subtractPktCtrs snapshots.macHw.mgmtPktCtr snapshots.host.mgmtPktCtr =
      (history.macHw : Int) - history.host := by
    rw [macHw, shown.host_eq seen, near.subtract_ctrs (by omega) (by omega) hostRecent (by omega)]
    omega
  have hostTime := near.time_gte hostRecent (show history.host - 1 < history.macHw by omega)
  have macHwTime := near.time_gte (show oldest ≤ history.macHw - 1 by omega)
    (show history.macHw - 1 < history.macHw by omega)
  have noneNeeded : (∀ i ∈ history.needed t, i < history.host) → history.Suffices t 0 := by
    intro before
    have place := suffices_of_before (Nat.le_refl _) hostReached before
    rwa [Int.sub_self] at place
  unfold framesPending
  dsimp only
  rw [distance, macHw, shown.host_eq seen, hostTime, macHwTime]
  split
  · rename_i notValid
    cases notValid
  · split
    · refine ⟨0, rfl, noneNeeded fun i isNeeded => ?_⟩
      have reached := (mem_needed.mp isNeeded).1.2
      omega
    · split
      · rename_i late
        refine ⟨0, rfl, noneNeeded fun i isNeeded => ?_⟩
        have before := before_of_time_le (by omega) (of_decide_eq_true late) isNeeded
        omega
      · rename_i early
        rw [decide_eq_true_eq, Nat.not_le] at early
        rw [assertNonneg_of_nonneg (by omega)]
        dsimp only [bind, Except.bind]
        split
        · rename_i condition
          obtain ⟨_, late⟩ := and_eq_true_iff.mp condition
          exact near.framesPendingBehind_suffices shown seen early (of_decide_eq_true late)
        · exact ⟨_, rfl, suffices_of_before hostReached (Nat.le_refl _) fun i isNeeded =>
            (mem_needed.mp isNeeded).1.2⟩

omit seen early in
theorem linkWaitCount_counts :
    ∃ count, linkWaitCount false (.active snapshots) (BitVec.ofNat 32 t) = .ok count ∧
      history.Counts t count := by
  have unseen := near.unseen
  have counters := near.counters
  have most : (history.needed t).card ≤ history.macHw - history.host := by
    refine (Finset.card_filter_le _ _).trans ?_
    rw [Nat.card_Ico]
  unfold linkWaitCount
  dsimp only
  rw [near.invalidateStaleSnapshots_eq shown, near.snapshotsCheckSanity_shown shown]
  rcases Nat.eq_zero_or_pos history.macHw with noFrame | reached
  · have macHw : snapshots.macHw.valid = false := by
      have shows := shown.macHw
      rw [lastMacHw, noFrame] at shows
      exact shows
    refine ⟨0, ?_, ⟨?_, fun _ => Nat.zero_le _, fun _ reached => absurd noFrame reached.ne'⟩⟩
    · have pending : framesPending snapshots (BitVec.ofNat 32 t) = .ok 0 := by
        unfold framesPending
        dsimp only
        rw [macHw]
        rfl
      rw [macHw, pending]
      rfl
    · exact most.trans (by omega)
  have macHwValid : snapshots.macHw.valid = true := by
    rw [shown.macHw_eq reached]
    rfl
  rcases Nat.eq_zero_or_pos history.host with noneSeen | seen
  · have host : snapshots.host.valid = false := by
      have shows := shown.host
      rw [lastHost, noneSeen] at shows
      exact shows
    refine ⟨allOnes 32, ?_, ⟨?_, ?_, fun _ _ => rfl⟩⟩
    · rw [macHwValid, host]
      rfl
    · rw [toNat_allOnes]
      omega
    · rintro (seen | noFrame) <;> omega
  · obtain ⟨count, ran, sufficient⟩ := near.framesPending_suffices shown seen
    have enough := sufficient.enough
    have few := sufficient.few
    have cut : (BitVec.ofInt 32 count).toNat = count.toNat := by
      rw [toNat_ofInt]
      omega
    refine ⟨BitVec.ofInt 32 count, ?_, ⟨?_, fun _ => ?_, fun noneSeen _ =>
      absurd noneSeen seen.ne'⟩⟩
    · have hostValid : snapshots.host.valid = true := by
        rw [shown.host_eq seen]
        rfl
      rw [macHwValid, hostValid, ran]
      dsimp only [bind, Except.bind]
      rw [assertNonneg_of_nonneg sufficient.nonneg]
      rfl
    · omega
    · omega

omit seen early in
theorem linkWaitCount_own : linkWaitCount true (.active snapshots) (BitVec.ofNat 32 t) = .ok 0 := by
  unfold linkWaitCount
  dsimp only
  rw [near.invalidateStaleSnapshots_eq shown, near.snapshotsCheckSanity_shown shown]
  rfl

end Near

end History

/-! ## All links -/

section Fold

variable (inFrameLink : Link) (views : Link → LinkView) (ts : BitVec 32)

/-- The round for a link. -/
def addLink (waitCount : WaitCount) (link : Link) : Except EstimateError WaitCount := do
  let count ← linkWaitCount (link == inFrameLink) (views link) ts
  return waitCount.add link count

variable {inFrameLink views ts}

theorem addLink_eq_ok_iff {waitCount after : WaitCount} {link : Link} :
    addLink inFrameLink views ts waitCount link = .ok after ↔
      ∃ count, linkWaitCount (link == inFrameLink) (views link) ts = .ok count ∧
        waitCount.add link count = after := by
  unfold addLink
  cases linkWaitCount (link == inFrameLink) (views link) ts with
  | error error => exact ⟨(fun ran => nomatch ran), fun ⟨_, ran, _⟩ => nomatch ran⟩
  | ok count =>
    constructor
    · exact fun ran => ⟨count, rfl, Except.ok.inj ran⟩
    · rintro ⟨_, ran, rfl⟩
      rw [← Except.ok.inj ran]
      rfl

theorem exists_foldlM_addLink {links : List Link} (rounds : ∀ link ∈ links, ∃ count,
      linkWaitCount (link == inFrameLink) (views link) ts = .ok count) (start : WaitCount) :
    ∃ waitCount, links.foldlM (addLink inFrameLink views ts) start = .ok waitCount := by
  induction links generalizing start with
  | nil => exact ⟨start, rfl⟩
  | cons link links ih =>
    obtain ⟨⟨count, ran⟩, rest⟩ := forall_mem_cons.mp rounds
    obtain ⟨waitCount, ran'⟩ := ih rest (start.add link count)
    refine ⟨waitCount, ?_⟩
    rw [foldlM_cons, addLink_eq_ok_iff.mpr ⟨count, ran, rfl⟩]
    exact ran'

/-- Each link has its count, and the counts are added to the total. -/
theorem foldlM_addLink {links : List Link} {start waitCount : WaitCount} (nodup : links.Nodup)
    (room : start.totalCount.toNat + links.length * 2 ^ 32 ≤ 2 ^ 64)
    (ran : links.foldlM (addLink inFrameLink views ts) start = .ok waitCount) :
    (∀ link ∈ links, linkWaitCount (link == inFrameLink) (views link) ts =
      .ok (waitCount.perLinkCount link)) ∧
    (∀ link ∉ links, waitCount.perLinkCount link = start.perLinkCount link) ∧
    waitCount.totalCount.toNat = start.totalCount.toNat +
      (links.map fun link => (waitCount.perLinkCount link).toNat).sum := by
  induction links generalizing start with
  | nil =>
    obtain rfl := Except.ok.inj ran
    exact ⟨nofun, fun _ _ => rfl, rfl⟩
  | cons link links ih =>
    rw [foldlM_cons] at ran
    cases first : addLink inFrameLink views ts start link with
    | error error => rw [first] at ran; cases ran
    | ok between =>
      rw [first] at ran
      obtain ⟨count, counted, rfl⟩ := addLink_eq_ok_iff.mp first
      obtain ⟨other, nodup⟩ := nodup_cons.mp nodup
      have total : (start.add link count).totalCount.toNat =
          start.totalCount.toNat + count.toNat := by
        rw [length_cons] at room
        change (start.totalCount + count.setWidth 64).toNat = _
        rw [toNat_add, toNat_setWidth]
        omega
      obtain ⟨counts, kept, sum⟩ := ih nodup (by rw [total]; rw [length_cons] at room; omega) ran
      have own : waitCount.perLinkCount link = count :=
        (kept link other).trans (update_self ..)
      refine ⟨forall_mem_cons.mpr ⟨own ▸ counted, counts⟩, fun other unlisted => ?_, ?_⟩
      · obtain ⟨different, unlisted⟩ := not_or.mp (mem_cons.not.mp unlisted)
        exact (kept other unlisted).trans (update_of_ne different ..)
      · rw [sum, total, map_cons, sum_cons, own, Nat.add_assoc]

/-- A wait count that is calculated has the count of each link, and their sum as the total. -/
theorem algoCalculateWaitCount_ok {waitCount : WaitCount}
    (ran : algoCalculateWaitCount inFrameLink views ts = .ok waitCount) :
    (∀ link, linkWaitCount (link == inFrameLink) (views link) ts =
      .ok (waitCount.perLinkCount link)) ∧ waitCount.Sums := by
  obtain ⟨counts, _, total⟩ := foldlM_addLink (nodup_finRange _) (by decide) ran
  refine ⟨fun link => counts link (mem_finRange link), ?_⟩
  rw [WaitCount.Sums, total]
  exact Nat.zero_add _

end Fold

/-- What the algorithm finds of a link is the history of the link, if there is one, near the
time of the incoming frame. -/
inductive Watched (t : Nat) : LinkView → Option History → Prop
  | absent : Watched t .absent none
  | active {history : History} {snapshots : Snapshots} {oldest base : Nat}
      (shown : history.Shown snapshots) (near : history.Near oldest base t) :
      Watched t (.active snapshots) (some history)

/-- The wait count of an incoming frame is calculated, with a count of each other link that
covers what the frame has to wait for. -/
theorem algoCalculateWaitCount_counts {inFrameLink : Link} {views : Link → LinkView}
    {histories : Link → Option History} {t : Nat}
    (watched : ∀ link, Watched t (views link) (histories link)) :
    ∃ waitCount, algoCalculateWaitCount inFrameLink views (BitVec.ofNat 32 t) = .ok waitCount ∧
      ∀ link ≠ inFrameLink, ∀ history ∈ histories link,
        history.Counts t (waitCount.perLinkCount link) := by
  have round : ∀ link, ∃ count,
      linkWaitCount (link == inFrameLink) (views link) (BitVec.ofNat 32 t) = .ok count ∧
        (link ≠ inFrameLink → ∀ history ∈ histories link, history.Counts t count) := by
    intro link
    have known := watched link
    revert known
    generalize views link = view, histories link = past
    intro known
    cases known with
    | absent => exact ⟨0, rfl, fun _ => nofun⟩
    | active shown near =>
      by_cases own : link = inFrameLink
      · rw [beq_iff_eq.mpr own]
        exact ⟨0, near.linkWaitCount_own shown, fun different => absurd own different⟩
      · rw [beq_false_of_ne own]
        obtain ⟨count, ran, counts⟩ := near.linkWaitCount_counts shown
        exact ⟨count, ran, fun _ history isHistory => Option.some.inj isHistory ▸ counts⟩
  obtain ⟨waitCount, ran⟩ := @exists_foldlM_addLink inFrameLink views _ (finRange maxMloLinks)
    (fun link _ => (round link).imp fun _ both => both.1)
    { perLinkCount := fun _ => 0, totalCount := 0 }
  refine ⟨waitCount, ran, fun link other history isHistory => ?_⟩
  obtain ⟨count, counted, counts⟩ := round link
  have known := (algoCalculateWaitCount_ok ran).1 link
  rw [counted] at known
  exact Except.ok.inj known ▸ counts other history isHistory

/-! Examples: a link that the host has seen no frame of, and one where a frame is on its way. -/

/-- A link with frames at equal distances, every other one of them for the host. -/
def steady (host firmware macHw : Nat) (host_le : host ≤ firmware) (firmware_le : firmware ≤ macHw) :
    History :=
  { firstCtr := 65535
    time := fun i => 10 * i + 10
    forwarded := fun i => i % 2 == 0
    host := host, atConsumed := firmware, atForwarded := firmware, macHw := macHw
    increasing := fun before _ => by omega
    host_le := host_le, atConsumed_le := Nat.le_refl _, atForwarded_le := firmware_le }

theorem near_steady {host firmware macHw t : Nat} (host_le : host ≤ firmware)
    (firmware_le : firmware ≤ macHw) (few : macHw ≤ 100) (early : t ≤ 1000) :
    (steady host firmware macHw host_le firmware_le).Near 0 0 t where
  host := fun i _ => Nat.zero_le i
  consumed := fun i _ => Nat.zero_le i
  forwarded := fun i _ => Nat.zero_le i
  unseen := Nat.zero_le _
  counters := few.trans (by decide)
  times := by
    intro i _ reached
    change i < macHw at reached
    change 0 ≤ 10 * i + 10 ∧ 10 * i + 10 < 0 + 2 ^ 31
    omega
  time := by omega

/-- Two links, the first of which has a frame that the host sees. -/
def twoLinks (other : History) (link : Link) : Option History :=
  if link = 0 then some (steady 1 1 1 (by decide) (by decide))
  else if link = 1 then some other else none

/-- What is found of a link. -/
def viewOf : Option History → LinkView
  | some history => .active history.snapshots
  | none => .absent

theorem watched_twoLinks {other : History} {t : Nat} (near : other.Near 0 0 t) (early : t ≤ 1000)
    (link : Link) : Watched t (viewOf (twoLinks other link)) (twoLinks other link) := by
  unfold twoLinks
  split
  · exact .active (History.shown_snapshots _) (near_steady _ _ (by decide) early)
  · split
    · exact .active (History.shown_snapshots _) near
    · exact .absent

/-- The host has not seen the frame at the MAC hardware. -/
def unseen : History := steady 0 0 1 (by decide) (by decide)

theorem linkWaitCount_unseen :
    linkWaitCount false (viewOf (twoLinks unseen 1)) (BitVec.ofNat 32 15) =
      .ok (allOnes 32) :=
  rfl

theorem not_suffices_unseen :
    ¬∀ (inFrameLink : Link) (views : Link → LinkView) (histories : Link → Option History)
      (t : Nat), (∀ link, Watched t (views link) (histories link)) →
        ∃ waitCount, algoCalculateWaitCount inFrameLink views (BitVec.ofNat 32 t) = .ok waitCount ∧
          ∀ link ≠ inFrameLink, ∀ history ∈ histories link,
            history.Suffices t (waitCount.perLinkCount link).toNat := by
  intro all
  obtain ⟨waitCount, ran, sufficient⟩ := all 0 (fun link => viewOf (twoLinks unseen link))
    (twoLinks unseen) 15
    (watched_twoLinks (near_steady _ _ (by decide) (by decide)) (by decide))
  have counted := (algoCalculateWaitCount_ok ran).1 1
  have most := Except.ok.inj (linkWaitCount_unseen.symm.trans counted)
  have few := (sufficient 1 (by decide) unseen rfl).few
  rw [← most] at few
  revert few
  decide

/-- Of four frames the host has seen one and the firmware three. -/
def onItsWay : History := steady 1 3 4 (by decide) (by decide)

theorem algoCalculateWaitCount_counts_onItsWay :
    ∃ waitCount, algoCalculateWaitCount 0 (fun link => viewOf (twoLinks onItsWay link))
        (BitVec.ofNat 32 35) = .ok waitCount ∧
      ∀ link ≠ 0, ∀ history ∈ twoLinks onItsWay link,
        history.Counts 35 (waitCount.perLinkCount link) :=
  algoCalculateWaitCount_counts
    (watched_twoLinks (near_steady _ _ (by decide) (by decide)) (by decide))

end Sm8650.MgmtReo
