import Sm8650.Mmrm.Accounting

/-!
# The bound on admitted requests

A request that passes the check of the peak current leaves an aggregate below the
threshold that covers the clients, provided that the throttling it may set off works
out: some client is asked, and the client that is throttled is not the one that asks and
frees as much current as is taken off the aggregate for it.
-/

namespace Sm8650.Mmrm

open Finset Transition

variable {n : Nat}

/-- Throttling a client on behalf of `c` works out: the client is another one, it frees
at the level the manager goes to what is taken off the aggregate, and this is enough. -/
structure Frees (info : SwInfo n) (c : Fin n) (reqLevel : VddLevel) (rate numHwBlocks : Nat)
    (d : Fin n) : Prop where
  other : d ≠ c
  freed : (info.clkClientTbl d).throttled.contribution (info.nextLevel c reqLevel) +
      saving info (info.clkClientTbl d) ≤
    (info.clkClientTbl d).contribution (info.nextLevel c reqLevel)
  enough : info.demand c reqLevel rate numHwBlocks <
    info.threshold + saving info (info.clkClientTbl d)

/-- The conditions on one request: its rate is not lost by the conversion to `u32`, the
sum it asks for does not overflow, and where it overshoots and may throttle, some client
is asked and throttling works out. -/
structure Proper (env : SetvalEnv) (info : SwInfo n) (c : Fin n) (reqLevel : VddLevel)
    (rate numHwBlocks : Nat) : Prop where
  counted : u32 rate = 0 →
    (info.clkClientTbl c).newCurrent reqLevel (info.nextLevel c reqLevel) rate numHwBlocks = 0
  small : info.demand c reqLevel (u32 rate) numHwBlocks < 2 ^ 31
  throttles : info.threshold ≤ info.demand c reqLevel (u32 rate) numHwBlocks →
    (info.clkClientTbl c).pri = .high ∧ env.enableThrottleFeature →
      info.throttleTarget env.throttle c reqLevel (u32 rate) numHwBlocks ≠ (0, none) ∧
        ∀ i d, info.throttleTarget env.throttle c reqLevel (u32 rate) numHwBlocks =
            (0, some (i, d)) → env.throttle.alloc = true →
          Frees info c reqLevel (u32 rate) numHwBlocks d

/-- Every request is proper; clients come and go freely. -/
def Admissible (platform : Platform n) (info : SwInfo n) : Call → Prop
  | .setval env client clientData clkVal => ∀ c data reqLevel,
      Asks platform info env.driver client clientData clkVal c data reqLevel →
        Proper env info c reqLevel (requestRate (info.clkClientTbl c) data clkVal).1
          data.numHwBlocks
  | _ => True

/-- The aggregate covers the clients and stays below the threshold. -/
structure Covered (info : SwInfo n) : Prop where
  tableInv : TableInv info
  covers : info.totalCurrent info.aggregLevel ≤ info.aggregVal
  small : info.aggregVal < 2147483648
  below : info.aggregVal < info.threshold

theorem covered_init {platform : Platform n} (positive : 0 < platform.peakThreshold) :
    Covered (initSwClkMgr platform) where
  tableInv := tableInv_init platform
  covers := le_of_eq (accounted_init platform).aggregVal.symm
  small := (accounted_init platform).small
  below := positive

theorem Covered.sameSums {info info' : SwInfo n} (inv : Covered info)
    (same : SameSums info info') : Covered info' := by
  refine ⟨same.tableInv, ?_, ?_, ?_⟩
  · rw [same.aggregVal, same.aggregLevel, same.totalCurrent]
    exact inv.covers
  · rw [same.aggregVal]
    exact inv.small
  · rw [same.aggregVal, same.threshold]
    exact inv.below

variable {info : SwInfo n}

/-- The aggregate asked for covers the other clients and the new current. -/
theorem Covered.le_demand (inv : Covered info) (c : Fin n) (reqLevel : VddLevel)
    (rate numHwBlocks : Nat) :
    info.otherCurrent c (info.nextLevel c reqLevel) +
        (info.clkClientTbl c).newCurrent reqLevel (info.nextLevel c reqLevel) rate numHwBlocks ≤
      info.demand c reqLevel rate numHwBlocks := by
  have split := info.contribution_add_otherCurrent c info.aggregLevel
  have covers := inv.covers
  unfold SwInfo.demand
  simp only
  by_cases stays : info.nextLevel c reqLevel = info.aggregLevel
  · rw [if_pos stays, stays]
    omega
  · rw [if_neg stays]

theorem Covered.fits (inv : Covered info) {env : SetvalEnv} {c : Fin n} {reqLevel : VddLevel}
    {rate numHwBlocks : Nat} (proper : Proper env info c reqLevel rate numHwBlocks) :
    Fits info c reqLevel (u32 rate) numHwBlocks where
  covered := by
    have split := info.contribution_add_otherCurrent c info.aggregLevel
    have covers := inv.covers
    omega
  aggreg := inv.small
  demand := proper.small

/-- A client that the search settles on saves current. -/
theorem throttleSearch_passedOver {env : ThrottleEnv} {deltaCur : Int} {i : Nat} {rc : Int}
    {ids : List Nat} {found : Nat × Fin n}
    (search : (throttleSearch env info deltaCur i rc ids).2 = some found) :
    passedOver info deltaCur (info.clkClientTbl found.2) = false := by
  fun_induction throttleSearch env info deltaCur i rc ids with
  | case1 => simp at search
  | case2 _ _ _ _ _ _ _ _ ih | case3 _ _ _ _ _ _ _ _ _ _ ih => exact ih search
  | case4 _ _ _ _ _ _ _ _ _ _ _ _ ih => exact ih search
  | case5 _ _ _ _ _ _ _ asked =>
    cases search
    simpa using asked
  | case6 _ _ _ _ _ ih => exact ih search

/-- Only a client with a clock saves current. -/
theorem EntryInv.throttled {entry : ClientEntry} (inv : EntryInv entry) {deltaCur : Int}
    (saves : passedOver info deltaCur entry = false) : EntryInv entry.throttled := by
  cases usable : entry.clk with
  | false =>
    have level := (inv.idle usable).2
    simp [passedOver, level] at saves
  | true =>
    refine ⟨fun _ => inv.client usable, ?_⟩
    intro unusable
    change entry.clk = false at unusable
    rw [usable] at unusable
    exact Bool.noConfusion unusable

/-- The currents of the clients other than `c` once another one is throttled. -/
theorem SwInfo.otherCurrent_setEntry_of_ne (info : SwInfo n) {c d : Fin n} (entry : ClientEntry)
    (level : VddLevel) (different : d ≠ c) :
    (info.setEntry d entry).otherCurrent c level + (info.clkClientTbl d).contribution level =
      info.otherCurrent c level + entry.contribution level := by
  have total := info.totalCurrent_setEntry d entry level
  have splitNew := (info.setEntry d entry).contribution_add_otherCurrent c level
  have splitOld := info.contribution_add_otherCurrent c level
  have splitThrottled := info.contribution_add_otherCurrent d level
  rw [setEntry_apply_of_ne info entry different.symm] at splitNew
  omega

section Commit

variable {info checked : SwInfo n} {c : Fin n} {reqLevel : VddLevel} {value : Nat}
  {data : ClientData} {clkVal : Nat} {rate : Nat × Nat} {tbl : Fin n → ClientEntry}

/-- Committing a request after an aggregate has been recorded that covers the clients. -/
theorem Covered.commit (recorded : Recorded info tbl (info.nextLevel c reqLevel) value checked)
    (tableInv : TableInv checked) (usable : (checked.clkClientTbl c).clk = true)
    (covers : checked.otherCurrent c (info.nextLevel c reqLevel) +
      (checked.clkClientTbl c).newCurrent reqLevel (info.nextLevel c reqLevel) rate.1
        data.numHwBlocks ≤ value) (small : value < 2147483648) (below : value < info.threshold) :
    Covered (checked.setEntry c ((checked.clkClientTbl c).commit data clkVal rate reqLevel)) := by
  refine ⟨tableInv.setEntry ((tableInv c).commit usable), ?_, ?_, ?_⟩
  · change (checked.setEntry c _).totalCurrent checked.aggregLevel ≤ checked.aggregVal
    rw [SwInfo.totalCurrent_setEntry, ClientEntry.contribution_commit usable,
      recorded.aggregLevel, recorded.aggregVal, Nat.add_comm]
    exact covers
  · change checked.aggregVal < 2147483648
    rw [recorded.aggregVal]
    exact small
  · change checked.aggregVal < checked.threshold
    rw [recorded.aggregVal, recorded.threshold]
    exact below

end Commit

/-- A proper request for a new rate keeps the aggregate above the clients and below the
threshold. -/
theorem Covered.setvalNew (inv : Covered info) (platform : Platform n) {env : SetvalEnv} {c : Fin n}
    {data : ClientData} {clkVal : Nat} (usable : (info.clkClientTbl c).clk = true)
    (admissible : Admissible platform info (.setval env (some c.val) (some data) clkVal)) :
    Covered (setvalNew platform env info c data clkVal).2 := by
  rcases setvalNew_cases platform env info c data clkVal with same | ⟨reqLevel, level, outcome⟩
  · rwa [same]
  have proper := admissible c data reqLevel ⟨rfl, rfl, usable, level⟩
  simp only at outcome
  generalize requestRate (info.clkClientTbl c) data clkVal = rate at proper outcome
  have counted := ClientEntry.newCurrent_u32 proper.counted
  have fits := inv.fits proper
  have covers := inv.le_demand c reqLevel (u32 rate.1) data.numHwBlocks
  rw [counted] at covers
  have checks : Checked env info c reqLevel (u32 rate.1) data.numHwBlocks _ :=
    checkPeakCurrent_checked fits usable
  have positive : 0 < info.threshold := Nat.lt_of_le_of_lt (Nat.zero_le _) inv.below
  generalize checkPeakCurrent env info c reqLevel (u32 rate.1) data.numHwBlocks = checked
    at outcome checks
  obtain ⟨rc, checked⟩ := checked
  rcases outcome with ⟨failed, left⟩ | ⟨succeeded, committed⟩
  · rw [left]
    cases checks with
    | refused _ unchanged => rwa [unchanged]
    | admitted succeeded | unasked succeeded => exact absurd succeeded failed
    | throttled _ _ succeeded => exact absurd succeeded failed
  rw [committed]
  cases checks with
  | refused failed => exact absurd succeeded failed
  | admitted _ below recorded =>
    have tbl : checked.clkClientTbl = info.clkClientTbl := recorded.clkClientTbl
    have tableInv : TableInv checked := by
      intro d
      rw [tbl]
      exact inv.tableInv d
    refine Covered.commit recorded tableInv (by rwa [tbl]) ?_ fits.demand (by omega)
    unfold SwInfo.otherCurrent
    rw [tbl]
    exact covers
  | unasked _ above allowed search =>
    exact absurd search (proper.throttles above allowed).1
  | throttled i d _ above allowed search stored recorded =>
    obtain ⟨other, freed, enough⟩ := (proper.throttles above allowed).2 i d search stored
    have saves := throttleSearch_passedOver (congrArg Prod.snd search)
    have tbl : checked.clkClientTbl =
        (info.setEntry d (info.clkClientTbl d).throttled).clkClientTbl := recorded.clkClientTbl
    have tableInv : TableInv checked := by
      intro e
      rw [tbl]
      exact inv.tableInv.setEntry ((inv.tableInv d).throttled saves) e
    have own : checked.clkClientTbl c = info.clkClientTbl c := by
      rw [tbl, SwInfo.setEntry_apply_of_ne _ _ other.symm]
    have others := info.otherCurrent_setEntry_of_ne (info.clkClientTbl d).throttled
      (info.nextLevel c reqLevel) other
    have throttledSum : checked.otherCurrent c (info.nextLevel c reqLevel) =
        (info.setEntry d (info.clkClientTbl d).throttled).otherCurrent c
          (info.nextLevel c reqLevel) := by
      unfold SwInfo.otherCurrent
      rw [tbl]
    have asked := fits.demand
    have value : u32 ((info.demand c reqLevel (u32 rate.1) data.numHwBlocks : Int) -
        saving info (info.clkClientTbl d)) =
        info.demand c reqLevel (u32 rate.1) data.numHwBlocks -
          saving info (info.clkClientTbl d) := by
      rw [← Nat.cast_sub (by omega)]
      exact u32_natCast (by omega)
    rw [value] at recorded
    refine Covered.commit recorded tableInv (by rwa [own]) ?_ (by omega) (by omega)
    rw [throttledSum, own]
    omega

/-- Every admissible call keeps the aggregate above the clients and below the
threshold. -/
theorem Covered.step (inv : Covered info) (platform : Platform n) {call : Call}
    (admissible : Admissible platform info call) : Covered (step platform info call) := by
  cases call with
  | register env desc => exact inv.sameSums (inv.tableInv.sameSums_register platform env desc)
  | setval env client clientData clkVal =>
    change Covered (clkClientSetval platform env client clientData clkVal info).2
    rcases clkClientSetval_cases platform env client clientData clkVal info with
      same | ⟨c, reserve, set⟩ | ⟨c, data, rfl, rfl, usable, new⟩
    · rwa [same]
    · rw [set]
      exact inv.sameSums (inv.tableInv.sameSums_reserve c reserve)
    · rw [new]
      exact inv.setvalNew platform usable admissible
  | deregister client =>
    change Covered (clkClientDeregister client info).2
    rcases clkClientDeregister_cases client info with
      same | ⟨c, rfl, ⟨-, set⟩ | ⟨last, entry, unusable, idle, level, set⟩⟩
    · rwa [same]
    · rw [set]
      exact inv.sameSums (inv.tableInv.sameSums_refCount c _)
    · rw [set]
      refine ⟨inv.tableInv.setEntry (.of_idle unusable idle level), ?_, inv.small, inv.below⟩
      change (info.setEntry c entry).totalCurrent info.aggregLevel ≤ info.aggregVal
      have split := info.contribution_add_otherCurrent c info.aggregLevel
      have covers := inv.covers
      rw [SwInfo.totalCurrent_setEntry, ClientEntry.contribution_of_clkRate_eq_zero _ idle]
      omega

/-- What a successful check promises once the request is committed: the recorded
aggregate is below the threshold and covers the active clients. -/
def AdmissionBound (platform : Platform n) (env : SetvalEnv) (info : SwInfo n) (c : Fin n)
    (data : ClientData) (clkVal : Nat) (reqLevel : VddLevel) : Prop :=
  (checkPeakCurrent env info c reqLevel
      (u32 (requestRate (info.clkClientTbl c) data clkVal).1) data.numHwBlocks).1 = 0 →
    let info' := (setvalNew platform env info c data clkVal).2
    info'.aggregVal < info'.threshold ∧ info'.totalCurrent info'.aggregLevel ≤ info'.aggregVal

/-- In every run of proper requests on a platform with a threshold, a request that passes
the check leaves an aggregate below the threshold that covers the active clients. -/
theorem admissionBound_of_admissible (platform : Platform n)
    (positive : 0 < platform.peakThreshold) (info : SwInfo n)
    (reaches : Reaches (guarded (Admissible platform) (step platform)) (initSwClkMgr platform) info)
    (env : SetvalEnv) (c : Fin n) (data : ClientData) (clkVal : Nat) (reqLevel : VddLevel)
    (asks : Asks platform info env.driver (some c.val) (some data) clkVal c data reqLevel)
    (admissible : Admissible platform info (.setval env (some c.val) (some data) clkVal)) :
    AdmissionBound platform env info c data clkVal reqLevel := by
  have inv : Covered info := by
    refine reaches.invariant (covered_init positive) ?_
    rintro source call target inv ⟨admissible, rfl⟩
    exact inv.step platform admissible
  have kept := inv.setvalNew platform asks.usable admissible
  exact fun _ => ⟨kept.below, kept.covers⟩

/-! ## A platform with two clock sources -/

/-- Clocks that run at two rates, the higher one at the corner of `SVS`. -/
def twoRateDriver : ClkDriver where
  roundRate rate := if rate < 2000000 then 1000000 else if rate < 3000000 then 2000000 else 2000001
  getVoltage rate := if rate < 2000000 then 64 else 128

/-- Two sources; the first one may be throttled. -/
def twoClientPlatform : Platform 2 where
  nomClkSet c := if c = 0 then ⟨0, 5, 100 <<< 16, 0, 2⟩ else ⟨0, 6, 40 <<< 16, 0, 2⟩
  cornerTbl := samplePlatform.cornerTbl
  vddCorner := samplePlatform.vddCorner
  peakThreshold := 120
  clsidThresholdClients := [5]

/-- The registration of the client of a source. -/
def twoClientRegister (clientId : Nat) (priority : ClientPriority) : Call :=
  .register ⟨twoRateDriver, false, true, true⟩ ⟨0, clientId, true, 0, 0, priority, true⟩

/-- The outcomes met by a request when the notifiers agree. -/
def agreeingEnv : SetvalEnv :=
  ⟨twoRateDriver, true, ⟨fun _ => 0, fun _ => 0, true⟩, 0⟩

/-- A request on one block. -/
def oneBlock : ClientData := ⟨1, false, .swDrv, 0, 0⟩

/-- The calls before the request of the second client. -/
def twoClientCalls : List Call :=
  [twoClientRegister 5 .low, twoClientRegister 6 .high,
    .setval agreeingEnv (some 0) (some oneBlock) 2000000]

/-- The first client is throttled to make room for the second one. -/
theorem admissionBound_sample :
    AdmissionBound twoClientPlatform agreeingEnv
      (twoClientCalls.foldl (step twoClientPlatform) (initSwClkMgr twoClientPlatform))
      1 oneBlock 2000000 .svs := by
  refine admissionBound_of_admissible twoClientPlatform (by decide) _ (Reaches.foldl ?_)
    agreeingEnv 1 oneBlock 2000000 .svs ⟨rfl, rfl, by decide +kernel, rfl⟩ ?_
  · refine ⟨trivial, trivial, ?_, trivial⟩
    intro c data reqLevel asks
    obtain ⟨rfl, rfl, rfl⟩ := Asks.unique (c := 0) asks rfl
    refine ⟨by decide +kernel, by decide +kernel, fun above => ?_⟩
    exact absurd above (by decide +kernel)
  · intro c data reqLevel asks
    obtain ⟨rfl, rfl, rfl⟩ := Asks.unique (c := 1) asks rfl
    refine ⟨by decide +kernel, by decide +kernel, fun _ _ => ⟨by decide +kernel, ?_⟩⟩
    intro i d search _
    have settles : SwInfo.throttleTarget
        (twoClientCalls.foldl (step twoClientPlatform) (initSwClkMgr twoClientPlatform))
        agreeingEnv.throttle 1 .svs 2000000 1 = (0, some (0, 0)) := by decide +kernel
    cases settles.symm.trans search
    exact ⟨by decide, by decide +kernel, by decide +kernel⟩

/-- A client of high priority overshoots the threshold where no client can be
throttled. -/
theorem not_admissionBound_of_noCandidate :
    ¬ ∀ info, Reaches (guarded (fun _ _ => True) (step samplePlatform))
        (initSwClkMgr samplePlatform) info →
      ∀ env c data clkVal reqLevel,
        Asks samplePlatform info env.driver (some c.val) (some data) clkVal c data reqLevel →
          AdmissionBound samplePlatform env info c data clkVal reqLevel := by
  intro bound
  have overshoot := bound ([sampleRegister].foldl (step samplePlatform)
    (initSwClkMgr samplePlatform)) (Reaches.foldl ⟨trivial, trivial⟩)
    ⟨sampleDriver, true, ⟨fun _ => 0, fun _ => 0, true⟩, 0⟩ 0 ⟨2, false, .swDrv, 0, 0⟩ 1000000
    .lowSvs ⟨rfl, rfl, by decide +kernel, rfl⟩ (by decide +kernel)
  revert overshoot
  decide +kernel

end Sm8650.Mmrm
