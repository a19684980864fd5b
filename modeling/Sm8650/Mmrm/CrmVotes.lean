import Mathlib.Data.List.MinMax
import Sm8650.Mmrm.Accounting

/-!
# The votes of a CRM client

A client managed by the clock resource manager has a vote for each power state of each
hardware instance and one for software. The rate of its entry is the highest vote. A request
of 0 takes a vote back; the level is then set to the lowest one whatever the other votes are.
-/

namespace Sm8650.Mmrm

open List

variable {n : Nat}

/-! ## The highest vote -/

/-- The rate and the index of an entry are those of a highest vote. -/
structure IsHighestVote (votes : List Nat) (rate idx : Nat) : Prop where
  attained : votes[idx]? = some rate
  upper : ∀ (i vote : Nat), votes[i]? = some vote → vote ≤ rate

/-- The highest of a list of votes. -/
def highestVote (votes : List Nat) : Nat :=
  votes.foldr max 0

theorem IsHighestVote.eq_highestVote {votes : List Nat} {rate idx : Nat}
    (isHighest : IsHighestVote votes rate idx) : rate = highestVote votes := by
  refine Nat.le_antisymm (le_max_of_le (mem_of_getElem? isHighest.attained)
    (Nat.le_refl rate)) (max_le_of_forall_le votes rate fun vote among => ?_)
  obtain ⟨i, isVote⟩ := mem_iff_getElem?.mp among
  exact isHighest.upper i vote isVote

/-- The best vote found at an index other than `skip` among those visited. -/
structure BestOther (visited : List (Nat × Nat)) (skip : Nat) (best : Nat × Nat) : Prop where
  upper : ∀ vote ∈ visited, vote.2 ≠ skip → vote.1 ≤ best.1
  attained : best.1 = 0 ∨ (best.2 ≠ skip ∧ best ∈ visited)

theorem BestOther.visit {visited : List (Nat × Nat)} {skip : Nat} {best vote : Nat × Nat}
    (isBest : BestOther visited skip best) (small : vote.1 < 4294967296) :
    BestOther (visited ++ [vote]) skip
      (if vote.2 = skip then best
        else if best.1 < vote.1 then (u32 vote.1, vote.2) else best) := by
  have keeps : best.1 = 0 ∨ (best.2 ≠ skip ∧ best ∈ visited ++ [vote]) :=
    isBest.attained.imp_right fun ⟨notSkip, among⟩ =>
      ⟨notSkip, mem_append_left [vote] among⟩
  by_cases skipped : vote.2 = skip
  · rw [if_pos skipped]
    refine ⟨fun other among notSkip => ?_, keeps⟩
    rcases mem_append.mp among with before | last
    · exact isBest.upper other before notSkip
    · rw [mem_singleton.mp last] at notSkip
      exact absurd skipped notSkip
  · rw [if_neg skipped]
    by_cases higher : best.1 < vote.1
    · rw [if_pos higher, u32_natCast small]
      refine ⟨fun other among notSkip => ?_, .inr ⟨skipped, by simp⟩⟩
      rcases mem_append.mp among with before | last
      · exact Nat.le_trans (isBest.upper other before notSkip) (Nat.le_of_lt higher)
      · rw [mem_singleton.mp last]
    · rw [if_neg higher]
      refine ⟨fun other among notSkip => ?_, keeps⟩
      rcases mem_append.mp among with before | last
      · exact isBest.upper other before notSkip
      · rw [mem_singleton.mp last]
        exact Nat.le_of_not_lt higher

theorem BestOther.visitAll {visited rest : List (Nat × Nat)} {skip : Nat} {best : Nat × Nat}
    (isBest : BestOther visited skip best) (small : ∀ vote ∈ rest, vote.1 < 4294967296) :
    BestOther (visited ++ rest) skip (rest.foldl (fun best vote =>
      if vote.2 = skip then best
      else if best.1 < vote.1 then (u32 vote.1, vote.2) else best) best) := by
  induction rest generalizing visited best with
  | nil => rwa [append_nil]
  | cons vote rest ih =>
    have next := isBest.visit (small vote mem_cons_self)
    have all := ih next fun other among => small other (mem_cons_of_mem vote among)
    rwa [append_assoc] at all

variable {entry : ClientEntry}

/-- What the scan of the other votes finds. -/
theorem maxOtherVote_spec (small : ∀ vote ∈ entry.crmClientTbl, vote < 4294967296) :
    BestOther entry.crmClientTbl.zipIdx entry.maxRateIdx (maxOtherVote entry) := by
  have nothing : BestOther [] entry.maxRateIdx (0, entry.maxRateIdx) :=
    ⟨fun vote among => absurd among not_mem_nil, .inl rfl⟩
  exact nothing.visitAll fun vote among => small vote.1 (fst_mem_of_mem_zipIdx among)

/-! ## A vote -/

/-- An entry of a CRM client whose votes fit in a `u32`. -/
structure CrmEntry (entry : ClientEntry) : Prop where
  isCrmClient : entry.isCrmClient = true
  length_eq : entry.crmClientTbl.length = entry.hwDrvInstances * entry.numPwrStates + 1
  small : ∀ vote ∈ entry.crmClientTbl, vote < 4294967296

section Vote

variable {entry : ClientEntry} {data : ClientData} {clkVal : Nat}

/-- A request that passes the checks of its CRM data names a vote of the table. -/
theorem CrmEntry.crmIdx_lt (crm : CrmEntry entry) (drv : data.crmDrvIdx < entry.hwDrvInstances)
    (pwr : data.pwrSt < entry.numPwrStates) : crmIdx entry data < entry.crmClientTbl.length := by
  have length_eq := crm.length_eq
  unfold crmIdx
  cases data.drvType with
  | swDrv => exact Nat.sub_lt (by omega) Nat.one_pos
  | hwDrv =>
    rw [length_eq]
    calc
      entry.numPwrStates * data.crmDrvIdx + data.pwrSt
          < entry.numPwrStates * data.crmDrvIdx + entry.numPwrStates :=
        Nat.add_lt_add_left pwr _
      _ = (data.crmDrvIdx + 1) * entry.numPwrStates := by
        rw [Nat.add_mul, Nat.one_mul, Nat.mul_comm]
      _ ≤ entry.hwDrvInstances * entry.numPwrStates := Nat.mul_le_mul_right _ drv
      _ < entry.hwDrvInstances * entry.numPwrStates + 1 := Nat.lt_succ_self _

/-- The rate and the index that a request accounts for are those of a highest vote once its
own vote is in the table. -/
theorem CrmEntry.getMaxCrmRate_spec (crm : CrmEntry entry)
    (isHighest : IsHighestVote entry.crmClientTbl entry.clkRate entry.maxRateIdx)
    (inTable : crmIdx entry data < entry.crmClientTbl.length) (valSmall : clkVal < 4294967296) :
    IsHighestVote (entry.crmClientTbl.set (crmIdx entry data) clkVal)
      (getMaxCrmRate entry data clkVal).1 (getMaxCrmRate entry data clkVal).2 := by
  have rateSmall : entry.clkRate < 4294967296 :=
    crm.small _ (mem_of_getElem? isHighest.attained)
  -- a vote of the new table is the new one or an old one of another index
  have votes {rate : Nat} (val : clkVal ≤ rate)
      (others : ∀ (i vote : Nat), i ≠ crmIdx entry data → entry.crmClientTbl[i]? = some vote →
        vote ≤ rate) (i vote : Nat)
      (isVote : (entry.crmClientTbl.set (crmIdx entry data) clkVal)[i]? = some vote) :
      vote ≤ rate := by
    by_cases own : i = crmIdx entry data
    · rw [own, getElem?_set_self inTable, Option.some.injEq] at isVote
      rwa [← isVote]
    · rw [getElem?_set_ne (Ne.symm own)] at isVote
      exact others i vote own isVote
  rw [getMaxCrmRate]
  simp only [u32_natCast rateSmall, u32_natCast valSmall]
  by_cases higher : entry.clkRate < clkVal
  · simp only [if_pos higher]
    refine ⟨getElem?_set_self inTable, votes (Nat.le_refl clkVal) fun i vote _ isVote => ?_⟩
    exact Nat.le_trans (isHighest.upper i vote isVote) (Nat.le_of_lt higher)
  · simp only [if_neg higher]
    by_cases atMax : crmIdx entry data = entry.maxRateIdx
    · have best := maxOtherVote_spec crm.small
      have others (i vote : Nat) (notMax : i ≠ crmIdx entry data)
          (isVote : entry.crmClientTbl[i]? = some vote) : vote ≤ (maxOtherVote entry).1 :=
        best.upper (vote, i) (mem_zipIdx_iff_getElem?.mpr isVote) (atMax ▸ notMax)
      simp only [if_pos atMax]
      by_cases still : (maxOtherVote entry).1 ≤ clkVal
      · simp only [if_pos still, ← atMax]
        refine ⟨getElem?_set_self inTable, votes (Nat.le_refl clkVal) ?_⟩
        intro i vote notMax isVote
        exact Nat.le_trans (others i vote notMax isVote) still
      · simp only [if_neg still]
        rcases best.attained with zero | ⟨notMax, among⟩
        · exact absurd (zero ▸ Nat.zero_le clkVal) still
        · refine ⟨?_, votes (Nat.le_of_not_le still) others⟩
          rw [getElem?_set_ne (atMax ▸ Ne.symm notMax)]
          exact mem_zipIdx_iff_getElem?.mp among
    · simp only [if_neg atMax]
      refine ⟨?_, votes (Nat.le_of_not_lt higher) fun i vote _ isVote =>
        isHighest.upper i vote isVote⟩
      rw [getElem?_set_ne atMax]
      exact isHighest.attained

end Vote

/-! ## A request -/

/-- A check leaves the entries alone, but for one that it throttles. -/
theorem checkPeakCurrent_clkClientTbl (env : SetvalEnv) (info : SwInfo n) (c : Fin n)
    (reqLevel : VddLevel) (clkVal numHwBlocks : Nat) (d : Fin n) :
    (checkPeakCurrent env info c reqLevel clkVal numHwBlocks).2.clkClientTbl d = info.clkClientTbl d
      ∨ (checkPeakCurrent env info c reqLevel clkVal numHwBlocks).2.clkClientTbl d
        = (info.clkClientTbl d).throttled := by
  have throttles (deltaCur : Int) :
      (throttleLowPriorityClient env.throttle info deltaCur).info.clkClientTbl d
          = info.clkClientTbl d
        ∨ (throttleLowPriorityClient env.throttle info deltaCur).info.clkClientTbl d
          = (info.clkClientTbl d).throttled := by
    unfold throttleLowPriorityClient
    rcases throttleSearch env.throttle info deltaCur 0 0 info.throttleClientsInfo
      with ⟨rc, _ | ⟨i, e⟩⟩
    · exact .inl rfl
    · dsimp only
      by_cases failed : env.throttle.alloc = false
      · rw [if_pos failed]
        exact .inl rfl
      · rw [if_neg failed]
        by_cases same : d = e
        · subst same
          exact .inr (SwInfo.setEntry_apply_self info d _)
        · exact .inl (SwInfo.setEntry_apply_of_ne info _ same)
  unfold checkPeakCurrent
  dsimp only
  generalize (if checkReqLevel info (info.clkClientTbl c).clkSrcId reqLevel ≠ info.aggregLevel
    then _ else info.aggregVal) = peakCur
  generalize (if checkReqLevel info (info.clkClientTbl c).clkSrcId reqLevel ≠ info.aggregLevel
    then (0 : Int) else _) = deltaCur
  by_cases negative : s32 (s32 peakCur + deltaCur) ≤ 0
  · rw [if_pos negative]
    exact .inl rfl
  rw [if_neg negative]
  by_cases overshoot : info.threshold ≤ u32 (s32 peakCur + deltaCur)
  · rw [if_pos overshoot]
    by_cases allowed : (info.clkClientTbl c).pri = .high ∧ env.enableThrottleFeature = true
    · rw [if_pos allowed]
      by_cases failed : (throttleLowPriorityClient env.throttle info deltaCur).rc ≠ 0
      · rw [if_pos failed]
        exact throttles deltaCur
      · rw [if_neg failed]
        exact throttles deltaCur
    · rw [if_neg allowed]
      exact .inl rfl
  · rw [if_neg overshoot]
    exact .inl rfl

/-- Being throttled leaves nothing that a request of the same client does not overwrite. -/
theorem ClientEntry.commit_throttled (entry : ClientEntry) (data : ClientData) (clkVal : Nat)
    (rate : Nat × Nat) (reqLevel : VddLevel) :
    entry.throttled.commit data clkVal rate reqLevel = entry.commit data clkVal rate reqLevel := by
  cases crm : entry.isCrmClient <;> simp [commit, throttled, crm, crmIdx]

/-- A request of a client: the environment it meets, its data and its value. -/
structure CrmCall where
  env : SetvalEnv
  data : ClientData
  clkVal : Nat

/-- A request of the client `c` succeeds, with the clock framework `driver`. -/
structure Succeeds (platform : Platform n) (driver : ClkDriver) (c : Fin n) (call : CrmCall)
    (info after : SwInfo n) : Prop where
  driver_eq : call.env.driver = driver
  small : call.clkVal < 4294967296
  setval : clkClientSetval platform call.env (some c.val) (some call.data) call.clkVal info
    = (0, after)

/-- The level of a rate. -/
def crmLevel (platform : Platform n) (driver : ClkDriver) (rate : Nat) : Except Int VddLevel :=
  if rate = 0 then .ok .lowSvs else getReqLevel platform driver rate

/-- What a successful request of a CRM client leaves in its entry. -/
structure Voted (platform : Platform n) (driver : ClkDriver) (call : CrmCall)
    (entry entry' : ClientEntry) : Prop where
  drv : call.data.crmDrvIdx < entry.hwDrvInstances
  pwr : call.data.pwrSt < entry.numPwrStates
  level : call.clkVal = 0 ∧ entry'.vddLevel = .lowSvs
    ∨ call.clkVal ≠ 0 ∧ getReqLevel platform driver (getMaxCrmRate entry call.data call.clkVal).1
      = .ok entry'.vddLevel
  commit : entry' = entry.commit call.data call.clkVal
    (getMaxCrmRate entry call.data call.clkVal) entry'.vddLevel

variable {platform : Platform n} {driver : ClkDriver}

/-- The level of a request of a CRM client is that of the rate accounted for, or the lowest
one for a value of 0. -/
theorem requestLevel_ok {data : ClientData} {clkVal : Nat} {level : VddLevel}
    (crm : entry.isCrmClient = true)
    (ok : requestLevel platform driver entry data clkVal = .ok level) :
    clkVal = 0 ∧ level = .lowSvs
      ∨ clkVal ≠ 0
        ∧ getReqLevel platform driver (getMaxCrmRate entry data clkVal).1 = .ok level := by
  rw [requestLevel, requestRate, if_pos crm] at ok
  by_cases zero : clkVal = 0
  · rw [if_neg (not_not.mpr zero), Except.ok.injEq] at ok
    exact .inl ⟨zero, ok.symm⟩
  · rw [if_pos zero] at ok
    refine .inr ⟨zero, ?_⟩
    rcases found : getReqLevel platform driver (getMaxCrmRate entry data clkVal).1 with rc | other
    · rw [found] at ok
      exact absurd ok (by simp)
    · rw [found] at ok
      dsimp only at ok
      by_cases blocks : 1 ≤ data.numHwBlocks ∧ data.numHwBlocks ≤ entry.maxNumHwBlocks
      · rwa [if_pos blocks] at ok
      · rw [if_neg blocks] at ok
        exact absurd ok (by simp)

theorem requestLevel_error {data : ClientData} {clkVal : Nat} {rc : Int}
    (error : requestLevel platform driver entry data clkVal = .error rc) : rc ≠ 0 := by
  rw [requestLevel] at error
  by_cases zero : clkVal = 0
  · rw [if_neg (not_not.mpr zero)] at error
    exact absurd error (by simp)
  · rw [if_pos zero] at error
    have isEinval : rc = einval := by
      rcases found : getReqLevel platform driver (requestRate entry data clkVal).1 with code | other
      · rw [found] at error
        exact (Except.error.inj error).symm
      · rw [found] at error
        dsimp only at error
        by_cases blocks : 1 ≤ data.numHwBlocks ∧ data.numHwBlocks ≤ entry.maxNumHwBlocks
        · rw [if_pos blocks] at error
          exact absurd error (by simp)
        · rw [if_neg blocks] at error
          exact (Except.error.inj error).symm
    rw [isEinval]
    exact einval_ne_zero

/-- A successful request has passed every check and is committed. -/
theorem Succeeds.voted {c : Fin n} {call : CrmCall} {info after : SwInfo n}
    (succeeds : Succeeds platform driver c call info after)
    (crm : (info.clkClientTbl c).isCrmClient = true) :
    Voted platform driver call (info.clkClientTbl c) (after.clkClientTbl c) := by
  obtain ⟨rfl, -, setval⟩ := succeeds
  rw [clkClientSetval] at setval
  simp only [c.isLt, dif_pos] at setval
  by_cases unusable : (info.clkClientTbl c).clk = false
  · rw [if_pos unusable] at setval
    exact absurd (congrArg Prod.fst setval) einval_ne_zero
  rw [if_neg unusable] at setval
  by_cases invalid : (info.clkClientTbl c).isCrmClient = true
      ∧ ((info.clkClientTbl c).hwDrvInstances ≤ call.data.crmDrvIdx
        ∨ (info.clkClientTbl c).numPwrStates ≤ call.data.pwrSt)
  · rw [if_pos invalid] at setval
    exact absurd (congrArg Prod.fst setval) einval_ne_zero
  rw [if_neg invalid] at setval
  have changed : ¬ (info.clkClientTbl c).unchanged call.data call.clkVal = true := by
    simp [ClientEntry.unchanged, crm]
  rw [if_neg changed, setvalNew] at setval
  rcases asked : requestLevel platform call.env.driver (info.clkClientTbl c) call.data
      call.clkVal with rc | reqLevel
  · rw [asked] at setval
    exact absurd (congrArg Prod.fst setval) (requestLevel_error asked)
  rw [asked] at setval
  dsimp only at setval
  by_cases refused : (checkPeakCurrent call.env info c reqLevel
      (u32 (requestRate (info.clkClientTbl c) call.data call.clkVal).1)
      call.data.numHwBlocks).1 ≠ 0
  · rw [if_pos refused] at setval
    exact absurd (congrArg Prod.fst setval) refused
  rw [if_neg refused, requestRate, if_pos crm] at setval
  have committed : after.clkClientTbl c = (info.clkClientTbl c).commit call.data call.clkVal
      (getMaxCrmRate (info.clkClientTbl c) call.data call.clkVal) reqLevel := by
    have rated : ¬ (call.data.reserveOnly = true ∧ (info.clkClientTbl c).isCrmClient = false) :=
      fun both => Bool.noConfusion (both.2.symm.trans crm)
    rw [if_neg rated] at setval
    rw [← (Prod.mk.inj setval).2, SwInfo.setEntry_apply_self]
    rcases checkPeakCurrent_clkClientTbl call.env info c reqLevel
      (u32 (getMaxCrmRate (info.clkClientTbl c) call.data call.clkVal).1)
      call.data.numHwBlocks c with same | throttled
    · rw [same]
    · rw [throttled, ClientEntry.commit_throttled]
  have level : (after.clkClientTbl c).vddLevel = reqLevel := by
    rw [committed]
    rfl
  have valid := not_or.mp (fun failed => invalid ⟨crm, failed⟩)
  exact ⟨Nat.lt_of_not_le valid.1, Nat.lt_of_not_le valid.2, level ▸ requestLevel_ok crm asked,
    level ▸ committed⟩

theorem ClientEntry.commit_crm (crm : entry.isCrmClient = true) (data : ClientData) (clkVal : Nat)
    (rate : Nat × Nat) (reqLevel : VddLevel) :
    (entry.commit data clkVal rate reqLevel).crmClientTbl
        = entry.crmClientTbl.set (crmIdx entry data) clkVal
      ∧ (entry.commit data clkVal rate reqLevel).clkRate = rate.1
      ∧ (entry.commit data clkVal rate reqLevel).maxRateIdx = rate.2
      ∧ (entry.commit data clkVal rate reqLevel).isCrmClient = true
      ∧ (entry.commit data clkVal rate reqLevel).hwDrvInstances = entry.hwDrvInstances
      ∧ (entry.commit data clkVal rate reqLevel).numPwrStates = entry.numPwrStates := by
  simp [commit, crm]

/-- The entry of a CRM client accounts for its highest vote. -/
structure Aggregated (entry : ClientEntry) : Prop extends CrmEntry entry where
  isHighest : IsHighestVote entry.crmClientTbl entry.clkRate entry.maxRateIdx

/-- A successful request keeps the accounted rate the highest vote. -/
theorem Aggregated.voted {call : CrmCall} {entry entry' : ClientEntry}
    (aggregated : Aggregated entry) (voted : Voted platform driver call entry entry')
    (small : call.clkVal < 4294967296) : Aggregated entry' := by
  have inTable := aggregated.crmIdx_lt voted.drv voted.pwr
  obtain ⟨tbl, rate, idx, crm, drv, pwr⟩ := ClientEntry.commit_crm aggregated.isCrmClient
    call.data call.clkVal (getMaxCrmRate entry call.data call.clkVal) entry'.vddLevel
  rw [← voted.commit] at tbl rate idx crm drv pwr
  refine ⟨⟨crm, ?_, ?_⟩, ?_⟩
  · rw [tbl, length_set, aggregated.length_eq, drv, pwr]
  · intro vote among
    rw [tbl] at among
    rcases mem_or_eq_of_mem_set among with old | new
    · exact aggregated.small vote old
    · rwa [new]
  · rw [tbl, rate, idx]
    exact aggregated.toCrmEntry.getMaxCrmRate_spec aggregated.isHighest inTable small

/-- The level of a call fits the votes that it leaves: it is not 0, or what is left without
the vote taken back has the lowest level. -/
def KeepsLevel (platform : Platform n) (driver : ClkDriver) (call : CrmCall)
    (entry : ClientEntry) : Prop :=
  call.clkVal = 0 → crmLevel platform driver
    (highestVote (entry.crmClientTbl.set (crmIdx entry call.data) 0)) = .ok .lowSvs

/-- The level of an entry is that of its rate. -/
def LevelFits (platform : Platform n) (driver : ClkDriver) (entry : ClientEntry) : Prop :=
  crmLevel platform driver entry.clkRate = .ok entry.vddLevel

/-- After a successful request the level is that of the rate exactly if the request is not one
that takes a vote back while the remaining votes need more than the lowest level. -/
theorem Aggregated.levelFits_iff {call : CrmCall} {entry entry' : ClientEntry}
    (aggregated : Aggregated entry) (voted : Voted platform driver call entry entry')
    (small : call.clkVal < 4294967296) :
    LevelFits platform driver entry' ↔ KeepsLevel platform driver call entry := by
  have after := aggregated.voted voted small
  obtain ⟨tbl, rate, -⟩ := ClientEntry.commit_crm aggregated.isCrmClient call.data call.clkVal
    (getMaxCrmRate entry call.data call.clkVal) entry'.vddLevel
  rw [← voted.commit] at tbl rate
  rw [LevelFits, KeepsLevel]
  rcases voted.level with ⟨zero, level⟩ | ⟨nonzero, level⟩
  · rw [after.isHighest.eq_highestVote, tbl, zero, level]
    exact ⟨fun fits _ => fits, fun fits => fits rfl⟩
  · refine iff_of_true ?_ fun zero => absurd zero nonzero
    have own : entry'.crmClientTbl[crmIdx entry call.data]? = some call.clkVal := by
      rw [tbl]
      exact getElem?_set_self (aggregated.crmIdx_lt voted.drv voted.pwr)
    have positive := after.isHighest.upper _ _ own
    rw [crmLevel, if_neg (by omega), rate, level]

/-! ## Runs -/

/-- An entry of a CRM client that has not voted. -/
structure FreshCrm (entry : ClientEntry) : Prop where
  isCrmClient : entry.isCrmClient = true
  crmClientTbl : entry.crmClientTbl
    = List.replicate (entry.hwDrvInstances * entry.numPwrStates + 1) 0
  clkRate : entry.clkRate = 0
  maxRateIdx : entry.maxRateIdx = 0
  vddLevel : entry.vddLevel = .lowSvs

theorem FreshCrm.aggregated (fresh : FreshCrm entry) : Aggregated entry := by
  refine ⟨⟨fresh.isCrmClient, ?_, ?_⟩, ?_, ?_⟩
  · rw [fresh.crmClientTbl, length_replicate]
  · intro vote among
    rw [fresh.crmClientTbl] at among
    rw [eq_of_mem_replicate among]
    decide
  · rw [fresh.crmClientTbl, fresh.clkRate, fresh.maxRateIdx]
    rfl
  · intro i vote isVote
    rw [fresh.crmClientTbl] at isVote
    rw [eq_of_mem_replicate (mem_of_getElem? isVote)]
    exact Nat.zero_le _

/-- A registration with CRM data that gives the entry of no other client its client leaves it
without votes. -/
theorem clkClientRegister_freshCrm {env : RegisterEnv} {desc : ClientDesc} {info info' : SwInfo n}
    {c : Fin n} (inv : TableInv info) (crm : desc.crm = true)
    (unregistered : (info.clkClientTbl c).client = false)
    (registered : clkClientRegister platform env desc info = (some c, info')) :
    FreshCrm (info'.clkClientTbl c) := by
  unfold clkClientRegister at registered
  split at registered
  · cases registered
  split at registered
  · cases registered
  rename_i d _
  by_cases present : (info.clkClientTbl d).client = true
  · simp only [if_pos present] at registered
    split at registered
    · have same : d = c := Option.some.inj (congrArg Prod.fst registered)
      rw [same, unregistered] at present
      exact absurd present Bool.false_ne_true
    · cases registered
  simp only [if_neg present] at registered
  iterate 4
    split at registered
    · cases registered
  obtain ⟨same, rfl⟩ := Prod.mk.inj registered
  obtain rfl : d = c := Option.some.inj same
  have unusable : (info.clkClientTbl d).clk = false := by
    rw [← Bool.not_eq_true]
    exact fun usable => present ((inv d).client usable)
  obtain ⟨clkRate, vddLevel⟩ := (inv d).idle unusable
  rw [SwInfo.setEntry_apply_self]
  simp only [ClientEntry.populateCrm, if_pos crm]
  exact ⟨rfl, rfl, clkRate, rfl, vddLevel⟩

/-- The states that successful requests of one client lead to. -/
inductive CrmRun (platform : Platform n) (driver : ClkDriver) (c : Fin n) (start : SwInfo n) :
    SwInfo n → Prop
  | start : CrmRun platform driver c start start
  | call {info after : SwInfo n} (run : CrmRun platform driver c start info) (call : CrmCall)
      (succeeds : Succeeds platform driver c call info after) :
      CrmRun platform driver c start after

theorem CrmRun.aggregated {c : Fin n} {start info : SwInfo n}
    (run : CrmRun platform driver c start info) (fresh : FreshCrm (start.clkClientTbl c))
    : Aggregated (info.clkClientTbl c) := by
  induction run with
  | start => exact fresh.aggregated
  | call run _ succeeds ih => exact ih.voted (succeeds.voted ih.isCrmClient) succeeds.small

/-- Whatever successful requests a CRM client makes, the rate and the index of its entry are
those of a highest vote, and after each of them the level is that of the rate exactly if the
request is not one that takes a vote back while the remaining votes need more than the lowest
level. -/
theorem crm_aggregation {platform : Platform n} {driver : ClkDriver} {c : Fin n}
    {start : SwInfo n} (fresh : FreshCrm (start.clkClientTbl c)) :
    LevelFits platform driver (start.clkClientTbl c)
      ∧ ∀ info, CrmRun platform driver c start info →
        IsHighestVote (info.clkClientTbl c).crmClientTbl (info.clkClientTbl c).clkRate
            (info.clkClientTbl c).maxRateIdx
          ∧ ∀ call after, Succeeds platform driver c call info after →
            (LevelFits platform driver (after.clkClientTbl c)
              ↔ KeepsLevel platform driver call (info.clkClientTbl c)) := by
  refine ⟨?_, fun info run => ⟨(run.aggregated fresh).isHighest, fun call after succeeds => ?_⟩⟩
  · rw [LevelFits, fresh.clkRate, fresh.vddLevel]
    rfl
  · have aggregated := run.aggregated fresh
    exact aggregated.levelFits_iff (succeeds.voted aggregated.isCrmClient) succeeds.small

/-- A clock framework in which the rate 1 has the lowest level and every other rate the highest
one. -/
def stepDriver : ClkDriver where
  roundRate rate := rate
  getVoltage rate := if rate ≤ 1 then 0 else 4

/-- One clock source, with the index of each level as its corner. -/
def onePlatform : Platform 1 where
  nomClkSet := fun _ => ⟨0, 1, 0, 0, 1⟩
  cornerTbl := fun _ => ⟨0, 0, 0⟩
  vddCorner := fun level => level.index
  peakThreshold := 1000
  clsidThresholdClients := []

/-- A CRM client with one hardware instance and one power state. -/
def oneClient : SwInfo 1 where
  clkClientTbl := fun _ =>
    { (prepareEntry ⟨0, 1, 0, 0, 1⟩).populate ⟨0, 1, true, 1, 1, .low, false⟩ with
      isCrmClient := true, hwDrvInstances := 1, numPwrStates := 1, crmClientTbl := [0, 0] }
  throttleClientsInfo := []
  throttledClients := []
  threshold := 1000
  aggregVal := 0
  aggregLevel := .lowSvs

/-- A vote of the hardware instance or of software. -/
def oneVote (drvType : CrmDrv) (clkVal : Nat) : CrmCall :=
  ⟨⟨stepDriver, false, ⟨fun _ => 0, fun _ => 0, true⟩, 0⟩, ⟨1, false, drvType, 0, 0⟩, clkVal⟩

/-- The state that a vote leaves. -/
def SwInfo.afterVote (info : SwInfo 1) (call : CrmCall) : SwInfo 1 :=
  (clkClientSetval onePlatform call.env (some 0) (some call.data) call.clkVal info).2

theorem oneClient_freshCrm : FreshCrm (oneClient.clkClientTbl 0) :=
  ⟨rfl, rfl, rfl, rfl, rfl⟩

/-- The hardware instance votes for 5 and software for 3. -/
def twoVotes : SwInfo 1 :=
  (oneClient.afterVote (oneVote .hwDrv 5)).afterVote (oneVote .swDrv 3)

theorem twoVotes_run : CrmRun onePlatform stepDriver 0 oneClient twoVotes :=
  .call (.call .start (oneVote .hwDrv 5) ⟨rfl, by decide, rfl⟩) (oneVote .swDrv 3)
    ⟨rfl, by decide, rfl⟩

/-- A higher vote of software is accounted for at its level. -/
theorem crm_aggregation_higher :
    LevelFits onePlatform stepDriver ((twoVotes.afterVote (oneVote .swDrv 7)).clkClientTbl 0) :=
  (((crm_aggregation oneClient_freshCrm).2 twoVotes twoVotes_run).2 (oneVote .swDrv 7)
    (twoVotes.afterVote (oneVote .swDrv 7)) ⟨rfl, by decide, rfl⟩).mpr
    fun zero => absurd zero (by decide)

/-- Taking back the vote of the hardware instance leaves the rate 3 of software at the lowest
level instead of the highest one. -/
theorem crm_level_lost :
    Succeeds onePlatform stepDriver 0 (oneVote .hwDrv 0) twoVotes
        (twoVotes.afterVote (oneVote .hwDrv 0))
      ∧ ((twoVotes.afterVote (oneVote .hwDrv 0)).clkClientTbl 0).clkRate = 3
      ∧ ((twoVotes.afterVote (oneVote .hwDrv 0)).clkClientTbl 0).vddLevel = .lowSvs
      ∧ crmLevel onePlatform stepDriver 3 = .ok .turbo
      ∧ ¬ LevelFits onePlatform stepDriver
        ((twoVotes.afterVote (oneVote .hwDrv 0)).clkClientTbl 0) := by
  have needed : crmLevel onePlatform stepDriver 3 = .ok .turbo := rfl
  refine ⟨⟨rfl, by decide, rfl⟩, rfl, rfl, needed, fun fits => ?_⟩
  have lowest : crmLevel onePlatform stepDriver 3 = .ok .lowSvs := fits
  exact absurd (Except.ok.inj lowest) (by decide)

end Sm8650.Mmrm
