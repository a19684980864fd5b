import Mathlib.Algebra.BigOperators.Fin
import Sm8650.Mmrm.PeakCurrent

/-!
# What a request adds up to

The sums the manager keeps are stated here over the natural numbers, without wrapping.
As long as the sum a request asks for fits in 31 bits, the checks of
`mmrm_sw_check_peak_current` on `u32` and `int` are the checks on this sum.
-/

namespace Sm8650.Mmrm

open Finset

variable {n : Nat}

/-! ## Machine integers -/

theorem u32_natCast {value : Nat} (small : value < 4294967296) : u32 value = value := by
  unfold u32
  omega

theorem s32_of_small {value : Int} (lower : -2147483648 ≤ value) (upper : value < 2147483648) :
    s32 value = value := by
  unfold s32 u32
  split <;> omega

theorem u32_add_s32 (first second : Int) : u32 (first + s32 second) = u32 (first + second) := by
  unfold s32 u32
  split <;> omega

theorem u32_add_u32 (first second : Int) : u32 (first + u32 second) = u32 (first + second) := by
  unfold u32
  omega

theorem u32_u32_add (first second : Int) : u32 (u32 first + second) = u32 (first + second) := by
  unfold u32
  omega

theorem einval_ne_zero : einval ≠ 0 := by decide

theorem enomem_ne_zero : enomem ≠ 0 := by decide

/-! ## Sums over the clients -/

/-- The current of an entry at an aggregate level. -/
def ClientEntry.contribution (entry : ClientEntry) (level : VddLevel) : Nat :=
  if entry.active then entry.currentMa entry.vddLevel level * entry.numHwBlocks else 0

theorem ClientEntry.contribution_of_clkRate_eq_zero {entry : ClientEntry} (level : VddLevel)
    (idle : entry.clkRate = 0) : entry.contribution level = 0 := by
  simp [contribution, active, idle]

/-- The current of all clients. -/
def SwInfo.totalCurrent (info : SwInfo n) (level : VddLevel) : Nat :=
  ∑ c, (info.clkClientTbl c).contribution level

/-- The current of all clients but one. -/
def SwInfo.otherCurrent (info : SwInfo n) (except : Fin n) (level : VddLevel) : Nat :=
  ∑ c ∈ univ.erase except, (info.clkClientTbl c).contribution level

variable (info : SwInfo n)

theorem SwInfo.contribution_add_otherCurrent (c : Fin n) (level : VddLevel) :
    (info.clkClientTbl c).contribution level + info.otherCurrent c level =
      info.totalCurrent level := by
  exact add_sum_erase univ (fun d => (info.clkClientTbl d).contribution level) (mem_univ c)

theorem SwInfo.setEntry_apply_self (c : Fin n) (entry : ClientEntry) :
    (info.setEntry c entry).clkClientTbl c = entry := by
  simp [setEntry]

theorem SwInfo.setEntry_apply_of_ne {c d : Fin n} (entry : ClientEntry)
    (different : d ≠ c) : (info.setEntry c entry).clkClientTbl d = info.clkClientTbl d := by
  simp [setEntry, different]

theorem SwInfo.otherCurrent_setEntry (c : Fin n) (entry : ClientEntry)
    (level : VddLevel) : (info.setEntry c entry).otherCurrent c level = info.otherCurrent c level := by
  refine sum_congr rfl fun d member => ?_
  rw [setEntry_apply_of_ne info entry (ne_of_mem_erase member)]

theorem SwInfo.totalCurrent_setEntry (c : Fin n) (entry : ClientEntry) (level : VddLevel) :
    (info.setEntry c entry).totalCurrent level =
      entry.contribution level + info.otherCurrent c level := by
  rw [← contribution_add_otherCurrent _ c, setEntry_apply_self, otherCurrent_setEntry]

/-- Replacing an entry by one that draws the same current changes no sum. -/
theorem SwInfo.totalCurrent_setEntry_of_eq {c : Fin n} {entry : ClientEntry} {level : VddLevel}
    (same : entry.contribution level = (info.clkClientTbl c).contribution level) :
    (info.setEntry c entry).totalCurrent level = info.totalCurrent level := by
  rw [totalCurrent_setEntry, same, contribution_add_otherCurrent]

/-- The loop that sums up wraps around the sum of what it visits. -/
theorem foldl_wrapped_sum {α : Type*} (skipped : α → Prop) [DecidablePred skipped]
    (value : α → Nat) (items : List α) (start : Nat) :
    items.foldl (fun sum item =>
        if skipped item then sum else u32 (sum + u32 (value item))) (u32 start) =
      u32 ((start + (items.map fun item => if skipped item then 0 else value item).sum : Nat)) := by
  induction items generalizing start with
  | nil => rfl
  | cons item items ih =>
    simp only [List.foldl_cons, List.map_cons, List.sum_cons]
    by_cases skip : skipped item
    · rw [if_pos skip, if_pos skip, ih, Nat.zero_add]
    · rw [if_neg skip, if_neg skip]
      have joined : u32 (u32 (start : Int) + u32 (value item : Int)) =
          u32 ((start + value item : Nat) : Int) := by
        rw [u32_add_u32, u32_u32_add, Nat.cast_add]
      rw [joined, ih, Nat.add_assoc]

theorem calculateTotalCurrent_eq (level : VddLevel) (c : Fin n) :
    calculateTotalCurrent info level c = u32 (info.otherCurrent c level) := by
  have unfolded := foldl_wrapped_sum
    (fun d => (info.clkClientTbl d).active = false ∨ d = c)
    (fun d => (info.clkClientTbl d).currentMa (info.clkClientTbl d).vddLevel level *
      (info.clkClientTbl d).numHwBlocks) (List.finRange n) 0
  have sum_eq : ((List.finRange n).map fun d =>
      if (info.clkClientTbl d).active = false ∨ d = c then 0
      else (info.clkClientTbl d).currentMa (info.clkClientTbl d).vddLevel level *
        (info.clkClientTbl d).numHwBlocks).sum = info.otherCurrent c level := by
    rw [← Fin.sum_univ_def]
    rw [← sum_erase univ (a := c) (by simp)]
    refine sum_congr rfl fun d member => ?_
    have different : d ≠ c := ne_of_mem_erase member
    cases activity : (info.clkClientTbl d).active <;>
      simp [ClientEntry.contribution, activity, different]
  rw [sum_eq, Nat.zero_add] at unfolded
  rw [← unfolded]
  rfl

/-! ## The sum asked for -/

/-- The current of a client at a requested level and rate. -/
def ClientEntry.newCurrent (entry : ClientEntry) (reqLevel adjLevel : VddLevel)
    (rate numHwBlocks : Nat) : Nat :=
  if rate ≠ 0 then entry.currentMa reqLevel adjLevel * numHwBlocks else 0

/-- The level the manager goes to when client `c` asks for `reqLevel`. -/
def SwInfo.nextLevel (info : SwInfo n) (c : Fin n) (reqLevel : VddLevel) : VddLevel :=
  checkReqLevel info (info.clkClientTbl c).clkSrcId reqLevel

/-- The aggregate a request asks for: where the level stays, the old current of the
client is taken off the recorded aggregate, and where it changes, the currents of the
others are summed up again. -/
def SwInfo.demand (info : SwInfo n) (c : Fin n) (reqLevel : VddLevel) (rate numHwBlocks : Nat) :
    Nat :=
  let level := info.nextLevel c reqLevel
  (if level = info.aggregLevel then
      info.aggregVal - (info.clkClientTbl c).contribution info.aggregLevel
    else info.otherCurrent c level) +
    (info.clkClientTbl c).newCurrent reqLevel level rate numHwBlocks

/-- The difference `delta_cur` of a request. -/
def SwInfo.demandDelta (info : SwInfo n) (c : Fin n) (reqLevel : VddLevel)
    (rate numHwBlocks : Nat) : Int :=
  let level := info.nextLevel c reqLevel
  if level = info.aggregLevel then
    (info.clkClientTbl c).newCurrent reqLevel level rate numHwBlocks -
      (info.clkClientTbl c).contribution info.aggregLevel
  else 0

/-- An aggregate has been recorded over a table. -/
structure Recorded (info : SwInfo n) (tbl : Fin n → ClientEntry) (level : VddLevel) (value : Nat)
    (info' : SwInfo n) : Prop where
  clkClientTbl : info'.clkClientTbl = tbl
  throttleClientsInfo : info'.throttleClientsInfo = info.throttleClientsInfo
  threshold : info'.threshold = info.threshold
  aggregVal : info'.aggregVal = value
  aggregLevel : info'.aggregLevel = level

/-- The search for a client to throttle, started for a request. -/
def SwInfo.throttleTarget (info : SwInfo n) (env : ThrottleEnv) (c : Fin n) (reqLevel : VddLevel)
    (rate numHwBlocks : Nat) : Int × Option (Nat × Fin n) :=
  throttleSearch env info (info.demandDelta c reqLevel rate numHwBlocks) 0 0
    info.throttleClientsInfo

/-- The outcomes of a check: refused, admitted below the threshold, admitted above the
threshold because no client was asked, and admitted by throttling a client. -/
inductive Checked (env : SetvalEnv) (info : SwInfo n) (c : Fin n) (reqLevel : VddLevel)
    (rate numHwBlocks : Nat) (result : Int × SwInfo n) : Prop
  | refused (failed : result.1 ≠ 0) (unchanged : result.2 = info)
  | admitted (succeeded : result.1 = 0)
      (below : info.demand c reqLevel rate numHwBlocks = 0 ∨
        info.demand c reqLevel rate numHwBlocks < info.threshold)
      (recorded : Recorded info info.clkClientTbl (info.nextLevel c reqLevel)
        (info.demand c reqLevel rate numHwBlocks) result.2)
  | unasked (succeeded : result.1 = 0)
      (above : info.threshold ≤ info.demand c reqLevel rate numHwBlocks)
      (allowed : (info.clkClientTbl c).pri = .high ∧ env.enableThrottleFeature)
      (search : info.throttleTarget env.throttle c reqLevel rate numHwBlocks = (0, none))
      (recorded : Recorded info info.clkClientTbl (info.nextLevel c reqLevel)
        (info.demand c reqLevel rate numHwBlocks) result.2)
  | throttled (i : Nat) (d : Fin n) (succeeded : result.1 = 0)
      (above : info.threshold ≤ info.demand c reqLevel rate numHwBlocks)
      (allowed : (info.clkClientTbl c).pri = .high ∧ env.enableThrottleFeature)
      (search : info.throttleTarget env.throttle c reqLevel rate numHwBlocks = (0, some (i, d)))
      (stored : env.throttle.alloc = true)
      (recorded : Recorded info
        (Function.update info.clkClientTbl d (info.clkClientTbl d).throttled)
        (info.nextLevel c reqLevel)
        (u32 (info.demand c reqLevel rate numHwBlocks - saving info (info.clkClientTbl d)))
        result.2)

theorem recorded_reinstate {info info' : SwInfo n} {tbl : Fin n → ClientEntry} {level : VddLevel}
    {value : Nat} (recorded : Recorded info tbl level value info') :
    Recorded info tbl level value (reinstateThrottledClient info') :=
  ⟨recorded.clkClientTbl, recorded.throttleClientsInfo, recorded.threshold,
    recorded.aggregVal, recorded.aggregLevel⟩

/-- A search that settles on a client returns 0. -/
theorem throttleSearch_found {env : ThrottleEnv} {info : SwInfo n} {deltaCur : Int} {i : Nat}
    {rc : Int} {ids : List Nat} {found : Nat × Fin n}
    (search : (throttleSearch env info deltaCur i rc ids).2 = some found) :
    (throttleSearch env info deltaCur i rc ids).1 = 0 := by
  fun_induction throttleSearch env info deltaCur i rc ids with
  | case1 => simp at search
  | case2 _ _ _ _ _ _ _ _ ih | case3 _ _ _ _ _ _ _ _ _ _ ih | case6 _ _ _ _ _ ih => exact ih search
  | case4 _ _ _ _ _ _ _ _ _ _ _ _ ih => exact ih search
  | case5 _ _ _ _ _ _ _ _ _ _ _ returned => simpa using returned

section Check

variable {env : SetvalEnv} {info : SwInfo n} {c : Fin n} {reqLevel : VddLevel}
  {rate numHwBlocks : Nat}

/-- The sums of a request fit: the recorded aggregate covers the old current of the
client, and neither it nor the aggregate asked for reaches 31 bits. -/
structure Fits (info : SwInfo n) (c : Fin n) (reqLevel : VddLevel) (rate numHwBlocks : Nat) :
    Prop where
  covered : (info.clkClientTbl c).contribution info.aggregLevel ≤ info.aggregVal
  aggreg : info.aggregVal < 2147483648
  demand : info.demand c reqLevel rate numHwBlocks < 2147483648

section

variable (fits : Fits info c reqLevel rate numHwBlocks)

include fits

/-- `new_cur` of a check. -/
theorem Fits.newCur_eq :
    (if rate ≠ 0 then
        u32 ((info.clkClientTbl c).currentMa reqLevel (info.nextLevel c reqLevel) * numHwBlocks)
      else 0) =
      (info.clkClientTbl c).newCurrent reqLevel (info.nextLevel c reqLevel) rate numHwBlocks := by
  have small := fits.demand
  unfold SwInfo.demand at small
  unfold ClientEntry.newCurrent at small ⊢
  split
  · rename_i nonzero
    simp only [if_pos nonzero] at small
    exact u32_natCast (by omega)
  · rfl

/-- `old_cur` of a check. -/
theorem Fits.oldCur_eq (usable : (info.clkClientTbl c).clk = true) :
    (if (info.clkClientTbl c).clkRate ≠ 0 then
        u32 ((info.clkClientTbl c).currentMa (info.clkClientTbl c).vddLevel info.aggregLevel *
          (info.clkClientTbl c).numHwBlocks)
      else 0) = (info.clkClientTbl c).contribution info.aggregLevel := by
  have covered := fits.covered
  have small := fits.aggreg
  unfold ClientEntry.contribution ClientEntry.active at covered ⊢
  by_cases idle : (info.clkClientTbl c).clkRate = 0
  · simp [idle]
  · simp only [usable, idle, ne_eq, not_false_eq_true, decide_true, Bool.and_self, if_true]
      at covered ⊢
    exact u32_natCast (by omega)

/-- `peak_cur` and `delta_cur` add up to the aggregate asked for. -/
theorem Fits.peak_add_delta {peakCur : Nat} {deltaCur : Int}
    (peak : peakCur = if info.nextLevel c reqLevel ≠ info.aggregLevel then
        u32 (calculateTotalCurrent info (info.nextLevel c reqLevel) c +
          (info.clkClientTbl c).newCurrent reqLevel (info.nextLevel c reqLevel) rate numHwBlocks)
      else info.aggregVal)
    (delta : deltaCur = if info.nextLevel c reqLevel ≠ info.aggregLevel then 0 else
        s32 ((info.clkClientTbl c).newCurrent reqLevel (info.nextLevel c reqLevel) rate numHwBlocks -
          (info.clkClientTbl c).contribution info.aggregLevel)) :
    (peakCur : Int) + deltaCur = info.demand c reqLevel rate numHwBlocks ∧
      deltaCur = info.demandDelta c reqLevel rate numHwBlocks ∧ peakCur < 2147483648 := by
  obtain ⟨covered, small, asked⟩ := fits
  unfold SwInfo.demand at asked ⊢
  unfold SwInfo.demandDelta
  by_cases stays : info.nextLevel c reqLevel = info.aggregLevel
  · simp only [stays, ne_eq, not_true_eq_false, if_false, if_true] at peak delta asked ⊢
    rw [s32_of_small (by omega) (by omega)] at delta
    omega
  · simp only [stays, ne_eq, not_false_eq_true, if_true, if_false] at peak delta asked ⊢
    rw [calculateTotalCurrent_eq, u32_u32_add, ← Nat.cast_add, u32_natCast (by omega)] at peak
    omega

/-- As long as the sums fit, a check compares the aggregate asked for with the threshold
and either refuses the request or records an aggregate. -/
theorem checkPeakCurrent_checked (usable : (info.clkClientTbl c).clk = true) :
    Checked env info c reqLevel rate numHwBlocks
      (checkPeakCurrent env info c reqLevel rate numHwBlocks) := by
  unfold checkPeakCurrent
  simp only
  rw [fits.oldCur_eq usable]
  have newCur_eq := fits.newCur_eq
  unfold SwInfo.nextLevel at newCur_eq
  rw [newCur_eq]
  generalize peak : (if checkReqLevel info (info.clkClientTbl c).clkSrcId reqLevel ≠
    info.aggregLevel then _ else info.aggregVal) = peakCur
  generalize delta : (if checkReqLevel info (info.clkClientTbl c).clkSrcId reqLevel ≠
    info.aggregLevel then (0 : Int) else _) = deltaCur
  obtain ⟨sum_eq, delta_eq, peak_small⟩ := fits.peak_add_delta peak.symm delta.symm
  have asked := fits.demand
  have signed : s32 peakCur + deltaCur = info.demand c reqLevel rate numHwBlocks := by
    rw [s32_of_small (by omega) (by omega), sum_eq]
  rw [signed, s32_of_small (by omega) (by omega), sum_eq, u32_natCast (by omega)]
  by_cases nothing : (info.demand c reqLevel rate numHwBlocks : Int) ≤ 0
  · rw [if_pos nothing]
    have zero : info.demand c reqLevel rate numHwBlocks = 0 := by omega
    exact .admitted rfl (.inl zero) ⟨rfl, rfl, rfl, zero.symm, rfl⟩
  rw [if_neg nothing]
  by_cases overshoot : info.threshold ≤ info.demand c reqLevel rate numHwBlocks
  · rw [if_pos overshoot]
    by_cases allowed : (info.clkClientTbl c).pri = .high ∧ env.enableThrottleFeature = true
    · rw [if_pos allowed]
      unfold throttleLowPriorityClient
      rw [delta_eq]
      rcases search : throttleSearch env.throttle info
        (info.demandDelta c reqLevel rate numHwBlocks) 0 0 info.throttleClientsInfo with
        ⟨rc, found⟩
      cases found with
      | none =>
        by_cases asked : rc = 0
        · subst asked
          refine .unasked rfl overshoot allowed search (recorded_reinstate ⟨rfl, rfl, rfl, ?_, rfl⟩)
          rw [← delta_eq, sum_eq]
          exact u32_natCast (by omega)
        · simp only [ne_eq, asked]
          exact .refused asked rfl
      | some found =>
        obtain ⟨i, d⟩ := found
        have returned : rc = 0 := by
          have settled := throttleSearch_found (congrArg Prod.snd search)
          rwa [search] at settled
        subst returned
        cases stored : env.throttle.alloc with
        | false =>
          exact .refused enomem_ne_zero rfl
        | true =>
          simp only [Bool.true_eq_false, if_false]
          refine .throttled i d rfl overshoot allowed search stored
            (recorded_reinstate ⟨rfl, rfl, rfl, ?_, rfl⟩)
          simp only
          rw [u32_add_s32]
          congr 1
          omega
    · rw [if_neg allowed]
      exact .refused einval_ne_zero rfl
  · rw [if_neg overshoot]
    exact .admitted rfl (.inr (by omega)) (recorded_reinstate ⟨rfl, rfl, rfl, rfl, rfl⟩)

end

end Check

end Sm8650.Mmrm
