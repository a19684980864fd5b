import Sm8650.Mmrm.Demand
import Sm8650.Transition.Reach

/-!
# The aggregate and the clients

The clients register, ask for rates and leave in any order. The aggregate recorded by
the manager is the sum of the currents of the registered clients as long as no client
leaves while it draws current and no rate is lost by the conversion to `u32`.
-/

namespace Sm8650.Mmrm

open Finset Transition ClientEntry

variable {n : Nat}

/-- A call of a client. -/
inductive Call
  | register (env : RegisterEnv) (desc : ClientDesc)
  | setval (env : SetvalEnv) (client : Option Nat) (clientData : Option ClientData) (clkVal : Nat)
  | deregister (client : Option Nat)

/-- The state left by a call. -/
def step (platform : Platform n) (info : SwInfo n) : Call → SwInfo n
  | .register env desc => (clkClientRegister platform env desc info).2
  | .setval env client clientData clkVal =>
    (clkClientSetval platform env client clientData clkVal info).2
  | .deregister client => (clkClientDeregister client info).2

/-! ## What a call does to the table -/

/-- A registration keeps what an entry was asked for, and keeps the entry of a client
that is registered already but for its number of references. -/
structure Registers (entry entry' : ClientEntry) : Prop where
  clkRate : entry'.clkRate = entry.clkRate
  vddLevel : entry'.vddLevel = entry.vddLevel
  numHwBlocks : entry'.numHwBlocks = entry.numHwBlocks
  clk : entry'.clk = true → entry'.client = true ∨ entry'.clk = entry.clk
  registered : entry.client = true →
    entry'.client = true ∧ entry'.clk = entry.clk ∧ entry'.currentMa = entry.currentMa

variable (platform : Platform n)

theorem clkClientRegister_cases (env : RegisterEnv) (desc : ClientDesc) (info : SwInfo n) :
    (clkClientRegister platform env desc info).2 = info ∨
      ∃ c entry', (clkClientRegister platform env desc info).2 = info.setEntry c entry' ∧
        Registers (info.clkClientTbl c) entry' := by
  unfold clkClientRegister
  split
  · exact .inl rfl
  split
  · exact .inl rfl
  rename_i c _
  by_cases registered : (info.clkClientTbl c).client = true
  · simp only [registered, if_true]
    split
    · exact .inr ⟨c, _, rfl, rfl, rfl, rfl, fun _ => .inl rfl, fun _ => ⟨rfl, rfl, rfl⟩⟩
    · exact .inl rfl
  simp only [registered, Bool.false_eq_true, if_false]
  refine .inr ⟨c, ?_⟩
  split
  · exact ⟨_, rfl, rfl, rfl, rfl, by simp [forget], by simp [registered]⟩
  split
  · exact ⟨_, rfl, rfl, rfl, rfl, by simp [forget], by simp [registered]⟩
  split
  · exact ⟨_, rfl, rfl, rfl, rfl, by simp [forget], by simp [registered]⟩
  split
  · refine ⟨_, rfl, ?_, ?_, ?_, by simp [forget], by simp [registered]⟩
    all_goals
      simp only [populateCrm]
      split <;> rfl
  · refine ⟨_, rfl, ?_, ?_, ?_, fun _ => .inl ?_, by simp [registered]⟩
    all_goals
      simp only [populateCrm, populate]
      split <;> simp_all

theorem clkClientDeregister_cases (client : Option Nat) (info : SwInfo n) :
    (clkClientDeregister client info).2 = info ∨
      ∃ c : Fin n, client = some c.val ∧
        ((1 < (info.clkClientTbl c).refCount ∧ (clkClientDeregister client info).2 =
            info.setEntry c
              { info.clkClientTbl c with refCount := (info.clkClientTbl c).refCount - 1 }) ∨
          ((info.clkClientTbl c).refCount ≤ 1 ∧ ∃ entry', entry'.clk = false ∧
            entry'.clkRate = 0 ∧ entry'.vddLevel = .lowSvs ∧
            (clkClientDeregister client info).2 = info.setEntry c entry')) := by
  unfold clkClientDeregister
  cases client with
  | none => exact .inl rfl
  | some uid =>
    by_cases bound : uid < n
    · simp only [bound, dif_pos]
      refine .inr ⟨⟨uid, bound⟩, rfl, ?_⟩
      by_cases last : (info.clkClientTbl ⟨uid, bound⟩).refCount - 1 = 0
      · rw [if_pos last]
        exact .inr ⟨by omega, _, rfl, rfl, rfl, rfl⟩
      · rw [if_neg last]
        exact .inl ⟨by omega, rfl⟩
    · exact .inl (by simp [bound])

theorem clkClientSetval_cases (env : SetvalEnv) (client : Option Nat)
    (clientData : Option ClientData) (clkVal : Nat) (info : SwInfo n) :
    (clkClientSetval platform env client clientData clkVal info).2 = info ∨
      (∃ c reserve, (clkClientSetval platform env client clientData clkVal info).2 =
        info.setEntry c { info.clkClientTbl c with reserve }) ∨
      ∃ (c : Fin n) (data : ClientData), client = some c.val ∧ clientData = some data ∧
        (info.clkClientTbl c).clk = true ∧
        (clkClientSetval platform env client clientData clkVal info).2 =
          (setvalNew platform env info c data clkVal).2 := by
  unfold clkClientSetval
  cases client with
  | none => exact .inl rfl
  | some uid =>
    by_cases bound : uid < n
    · simp only [bound, dif_pos]
      cases clientData with
      | none => exact .inl rfl
      | some data =>
        simp only
        split
        · exact .inl rfl
        rename_i usable
        split
        · exact .inl rfl
        split
        · split
          · exact .inl rfl
          · split
            · exact .inr (.inl ⟨_, _, rfl⟩)
            · exact .inr (.inl ⟨_, _, rfl⟩)
        · exact .inr (.inr ⟨⟨uid, bound⟩, data, rfl, rfl, by simpa using usable, rfl⟩)
    · exact .inl (by simp [bound])

/-- A request for a new rate leaves the state alone, or it is refused by the check, or
the check succeeds and the request is committed. -/
theorem setvalNew_cases (env : SetvalEnv) (info : SwInfo n) (c : Fin n)
    (data : ClientData) (clkVal : Nat) :
    (setvalNew platform env info c data clkVal).2 = info ∨
      ∃ reqLevel, requestLevel platform env.driver (info.clkClientTbl c) data clkVal =
          .ok reqLevel ∧
        let rate := requestRate (info.clkClientTbl c) data clkVal
        let checked := checkPeakCurrent env info c reqLevel (u32 rate.1) data.numHwBlocks
        (checked.1 ≠ 0 ∧ (setvalNew platform env info c data clkVal).2 = checked.2) ∨
          (checked.1 = 0 ∧ (setvalNew platform env info c data clkVal).2 =
            checked.2.setEntry c ((checked.2.clkClientTbl c).commit data clkVal rate reqLevel)) := by
  unfold setvalNew
  simp only
  cases looked : requestLevel platform env.driver (info.clkClientTbl c) data clkVal with
  | error rc => exact .inl rfl
  | ok reqLevel =>
    refine .inr ⟨reqLevel, rfl, ?_⟩
    simp only
    by_cases failed : (checkPeakCurrent env info c reqLevel
        (u32 (requestRate (info.clkClientTbl c) data clkVal).1) data.numHwBlocks).1 = 0
    · refine .inr ⟨failed, ?_⟩
      rw [if_neg (by simp [failed])]
      split <;> rfl
    · exact .inl ⟨failed, by rw [if_pos failed]⟩

/-! ## Registered clients -/

/-- An entry that has a clock belongs to a client, and only such an entry has a rate or a
level. -/
structure EntryInv (entry : ClientEntry) : Prop where
  client : entry.clk = true → entry.client = true
  idle : entry.clk = false → entry.clkRate = 0 ∧ entry.vddLevel = .lowSvs

variable {entry : ClientEntry}

theorem EntryInv.clkRate_eq_zero (inv : EntryInv entry) (unregistered : entry.client = false)
    : entry.clkRate = 0 := by
  cases usable : entry.clk with
  | false => exact (inv.idle usable).1
  | true => simp [inv.client usable] at unregistered

/-- The invariant of all entries. -/
def TableInv (info : SwInfo n) : Prop :=
  ∀ c, EntryInv (info.clkClientTbl c)

variable {info : SwInfo n}

theorem TableInv.setEntry (inv : TableInv info) {c : Fin n} (entryInv : EntryInv entry)
    : TableInv (info.setEntry c entry) := by
  intro d
  by_cases same : d = c
  · subst same
    rwa [SwInfo.setEntry_apply_self]
  · rw [SwInfo.setEntry_apply_of_ne _ _ same]
    exact inv d

theorem tableInv_init : TableInv (initSwClkMgr platform) :=
  fun _ => ⟨fun usable => Bool.noConfusion usable, fun _ => ⟨rfl, rfl⟩⟩

theorem EntryInv.registers {entry entry' : ClientEntry}
    (inv : EntryInv entry) (registers : Registers entry entry') : EntryInv entry' := by
  constructor
  · intro usable
    rcases registers.clk usable with registered | same
    · exact registered
    · exact (registers.registered (inv.client (same ▸ usable))).1
  · intro unusable
    rw [registers.clkRate, registers.vddLevel]
    apply inv.idle
    by_contra usable
    have kept := registers.registered (inv.client (by simpa using usable))
    rw [kept.2.1] at unusable
    exact usable unusable

/-- A registration changes no current that counts. -/
theorem EntryInv.contribution_registers {entry entry' : ClientEntry}
    (inv : EntryInv entry) (registers : Registers entry entry') (level : VddLevel) :
    entry'.contribution level = entry.contribution level := by
  cases registered : entry.client with
  | false =>
    have idle := inv.clkRate_eq_zero registered
    rw [contribution_of_clkRate_eq_zero level idle,
      contribution_of_clkRate_eq_zero level (registers.clkRate.trans idle)]
  | true =>
    obtain ⟨-, clk, currentMa⟩ := registers.registered registered
    unfold contribution active
    rw [clk, currentMa, registers.clkRate, registers.vddLevel, registers.numHwBlocks]

/-- The current of the registered clients with a rate. -/
def SwInfo.registeredCurrent (info : SwInfo n) : Nat :=
  ∑ c with (info.clkClientTbl c).client = true ∧ (info.clkClientTbl c).clkRate ≠ 0,
    (info.clkClientTbl c).currentMa (info.clkClientTbl c).vddLevel info.aggregLevel *
      (info.clkClientTbl c).numHwBlocks

theorem TableInv.registeredCurrent_eq (inv : TableInv info) :
    info.registeredCurrent = info.totalCurrent info.aggregLevel := by
  unfold SwInfo.registeredCurrent
  rw [sum_filter]
  refine sum_congr rfl fun c _ => ?_
  unfold contribution active
  cases usable : (info.clkClientTbl c).clk with
  | false => simp [((inv c).idle usable).1]
  | true => simp [(inv c).client usable]

/-- What a call that asks for no new rate leaves alone. -/
structure SameSums (info info' : SwInfo n) : Prop where
  tableInv : TableInv info'
  totalCurrent : info'.totalCurrent info.aggregLevel = info.totalCurrent info.aggregLevel
  aggregVal : info'.aggregVal = info.aggregVal
  aggregLevel : info'.aggregLevel = info.aggregLevel
  threshold : info'.threshold = info.threshold

section

variable (inv : TableInv info)

include inv

theorem TableInv.sameSums : SameSums info info :=
  ⟨inv, rfl, rfl, rfl, rfl⟩

theorem TableInv.sameSums_setEntry {c : Fin n} (entryInv : EntryInv entry)
    (same : entry.contribution info.aggregLevel = (info.clkClientTbl c).contribution info.aggregLevel)
    : SameSums info (info.setEntry c entry) :=
  ⟨inv.setEntry entryInv, info.totalCurrent_setEntry_of_eq same, rfl, rfl, rfl⟩

theorem TableInv.sameSums_register (platform : Platform n) (env : RegisterEnv)
    (desc : ClientDesc) : SameSums info (clkClientRegister platform env desc info).2 := by
  rcases clkClientRegister_cases platform env desc info with same | ⟨c, entry, set, registers⟩
  · rw [same]
    exact inv.sameSums
  · rw [set]
    exact inv.sameSums_setEntry ((inv c).registers registers)
      ((inv c).contribution_registers registers _)

theorem TableInv.sameSums_reserve (c : Fin n) (reserve : Bool)
    : SameSums info (info.setEntry c { info.clkClientTbl c with reserve }) :=
  inv.sameSums_setEntry ⟨(inv c).client, (inv c).idle⟩ rfl

/-- A reference that is not the last one is dropped without effect on the sums. -/
theorem TableInv.sameSums_refCount (c : Fin n) (refCount : Nat)
    : SameSums info (info.setEntry c { info.clkClientTbl c with refCount }) :=
  inv.sameSums_setEntry ⟨(inv c).client, (inv c).idle⟩ rfl

end

/-- The entry of a client that has left draws no current. -/
theorem EntryInv.of_idle (unusable : entry.clk = false) (idle : entry.clkRate = 0)
    (level : entry.vddLevel = .lowSvs) : EntryInv entry :=
  ⟨fun usable => by simp [unusable] at usable, fun _ => ⟨idle, level⟩⟩

/-! ## Commitment of a request -/

section Commit

variable {entry : ClientEntry} {data : ClientData} {clkVal : Nat} {rate : Nat × Nat}
  {reqLevel level : VddLevel}

theorem ClientEntry.contribution_commit (usable : entry.clk = true) :
    (entry.commit data clkVal rate reqLevel).contribution level =
      entry.newCurrent reqLevel level rate.1 data.numHwBlocks := by
  unfold contribution active commit newCurrent
  cases crm : entry.isCrmClient <;> simp [usable]

theorem EntryInv.commit (inv : EntryInv entry) (usable : entry.clk = true) :
    EntryInv (entry.commit data clkVal rate reqLevel) := by
  have same : (entry.commit data clkVal rate reqLevel).clk = entry.clk ∧
      (entry.commit data clkVal rate reqLevel).client = entry.client := by
    unfold ClientEntry.commit
    cases crm : entry.isCrmClient <;> simp
  constructor
  · intro _
    rw [same.2]
    exact inv.client usable
  · intro unusable
    rw [same.1, usable] at unusable
    exact Bool.noConfusion unusable

/-- The rate handed to the check counts the client exactly when the committed rate
does. -/
theorem ClientEntry.newCurrent_u32 {rate numHwBlocks : Nat}
    (counted : u32 rate = 0 → entry.newCurrent reqLevel level rate numHwBlocks = 0) :
    entry.newCurrent reqLevel level (u32 rate) numHwBlocks =
      entry.newCurrent reqLevel level rate numHwBlocks := by
  by_cases lost : u32 (rate : Int) = 0
  · rw [counted lost]
    simp [newCurrent, lost]
  · have nonzero : rate ≠ 0 := by
      rintro rfl
      exact lost rfl
    simp [newCurrent, lost, nonzero]

end Commit

/-! ## Exact accounting -/

/-- Requests of clients: `c` asks for `reqLevel` with `data`, and the manager accounts
for `rate`. -/
structure Asks (platform : Platform n) (info : SwInfo n) (driver : ClkDriver)
    (client : Option Nat) (clientData : Option ClientData) (clkVal : Nat) (c : Fin n)
    (data : ClientData) (reqLevel : VddLevel) : Prop where
  client : client = some c.val
  clientData : clientData = some data
  usable : (info.clkClientTbl c).clk = true
  level : requestLevel platform driver (info.clkClientTbl c) data clkVal = .ok reqLevel

theorem Asks.unique {platform : Platform n} {driver : ClkDriver} {clkVal : Nat} {c c' : Fin n}
    {data data' : ClientData} {reqLevel reqLevel' : VddLevel}
    (asks : Asks platform info driver (some c.val) (some data) clkVal c' data' reqLevel')
    (level : requestLevel platform driver (info.clkClientTbl c) data clkVal = .ok reqLevel) :
    c' = c ∧ data' = data ∧ reqLevel' = reqLevel := by
  obtain ⟨client, clientData, -, level'⟩ := asks
  have sameClient : c' = c := Fin.ext (Option.some.inj client).symm
  have sameData : data' = data := (Option.some.inj clientData).symm
  subst sameClient sameData
  rw [level] at level'
  exact ⟨rfl, rfl, (Except.ok.inj level').symm⟩

/-- Throttling is disabled, and no sum asked for overflows. -/
def Plain (platform : Platform n) (info : SwInfo n) : Call → Prop
  | .register _ _ => True
  | .setval env client clientData clkVal =>
    env.enableThrottleFeature = false ∧ ∀ c data reqLevel,
      Asks platform info env.driver client clientData clkVal c data reqLevel →
        info.otherCurrent c (info.nextLevel c reqLevel) +
          (info.clkClientTbl c).currentMa reqLevel (info.nextLevel c reqLevel) *
            data.numHwBlocks < 2 ^ 31
  | .deregister _ => True

/-- No current gets lost: a rate whose low 32 bits are zero is only asked for where the
client draws no current, and a client that draws current does not leave. -/
def Released (platform : Platform n) (info : SwInfo n) : Call → Prop
  | .register _ _ => True
  | .setval env client clientData clkVal => ∀ c data reqLevel,
      Asks platform info env.driver client clientData clkVal c data reqLevel →
        u32 (requestRate (info.clkClientTbl c) data clkVal).1 = 0 →
          (info.clkClientTbl c).newCurrent reqLevel (info.nextLevel c reqLevel)
            (requestRate (info.clkClientTbl c) data clkVal).1 data.numHwBlocks = 0
  | .deregister client => ∀ c : Fin n, client = some c.val →
      (info.clkClientTbl c).refCount ≤ 1 → (info.clkClientTbl c).contribution info.aggregLevel = 0

/-- The aggregate is the sum of the currents, and it fits. -/
structure Accounted (info : SwInfo n) : Prop where
  tableInv : TableInv info
  aggregVal : info.aggregVal = info.totalCurrent info.aggregLevel
  small : info.aggregVal < 2147483648

theorem accounted_init : Accounted (initSwClkMgr platform) where
  tableInv := tableInv_init platform
  aggregVal := by
    unfold SwInfo.totalCurrent
    rw [sum_eq_zero]
    · rfl
    · intro c _
      exact contribution_of_clkRate_eq_zero _ rfl
  small := by
    change 0 < 2147483648
    omega

theorem Accounted.sameSums {info info' : SwInfo n} (inv : Accounted info)
    (same : SameSums info info') : Accounted info' := by
  refine ⟨same.tableInv, ?_, ?_⟩
  · rw [same.aggregVal, same.aggregLevel, same.totalCurrent]
    exact inv.aggregVal
  · rw [same.aggregVal]
    exact inv.small

theorem Accounted.demand_eq (inv : Accounted info) (c : Fin n) (reqLevel : VddLevel)
    (rate numHwBlocks : Nat) :
    info.demand c reqLevel rate numHwBlocks =
      info.otherCurrent c (info.nextLevel c reqLevel) +
        (info.clkClientTbl c).newCurrent reqLevel (info.nextLevel c reqLevel) rate numHwBlocks := by
  have split := info.contribution_add_otherCurrent c info.aggregLevel
  have exact := inv.aggregVal
  unfold SwInfo.demand
  simp only
  by_cases stays : info.nextLevel c reqLevel = info.aggregLevel
  · rw [if_pos stays, stays]
    omega
  · rw [if_neg stays]

/-- The sums of a request fit when the sum it asks for does. -/
theorem Accounted.fits (inv : Accounted info) {c : Fin n} {reqLevel : VddLevel} {numHwBlocks : Nat}
    (rate : Nat)
    (small : info.otherCurrent c (info.nextLevel c reqLevel) + (info.clkClientTbl c).currentMa reqLevel (info.nextLevel c reqLevel) * numHwBlocks < 2 ^ 31)
    : Fits info c reqLevel rate numHwBlocks where
  covered := by
    have split := info.contribution_add_otherCurrent c info.aggregLevel
    have exact := inv.aggregVal
    omega
  aggreg := inv.small
  demand := by
    rw [inv.demand_eq]
    unfold newCurrent
    split <;> omega

/-- A request for a new rate keeps the aggregate exact. -/
theorem Accounted.setvalNew (inv : Accounted info) (platform : Platform n) {env : SetvalEnv}
    {c : Fin n} {data : ClientData} {clkVal : Nat} (usable : (info.clkClientTbl c).clk = true)
    (plain : Plain platform info (.setval env (some c.val) (some data) clkVal))
    (released : Released platform info (.setval env (some c.val) (some data) clkVal)) :
    Accounted (setvalNew platform env info c data clkVal).2 := by
  rcases setvalNew_cases platform env info c data clkVal with same | ⟨reqLevel, level, outcome⟩
  · rwa [same]
  have asks : Asks platform info env.driver (some c.val) (some data) clkVal c data reqLevel :=
    ⟨rfl, rfl, usable, level⟩
  have small := plain.2 c data reqLevel asks
  have counted := newCurrent_u32 (released c data reqLevel asks)
  simp only at outcome
  generalize requestRate (info.clkClientTbl c) data clkVal = rate at counted outcome
  have fits := inv.fits (u32 rate.1) small
  have checks : Checked env info c reqLevel (u32 rate.1) data.numHwBlocks _ :=
    checkPeakCurrent_checked fits usable
  rcases checks with
    ⟨failed, unchanged⟩ | ⟨succeeded, -, recorded⟩ | ⟨-, -, allowed, -⟩ | ⟨-, -, -, -, allowed, -⟩
  · rcases outcome with ⟨-, left⟩ | ⟨succeeded, -⟩
    · rw [left, unchanged]
      exact inv
    · exact absurd succeeded failed
  · rcases outcome with ⟨failed, -⟩ | ⟨-, committed⟩
    · exact absurd succeeded failed
    rw [committed]
    generalize checkPeakCurrent env info c reqLevel (u32 rate.1) data.numHwBlocks = checked
      at recorded
    have tableInv : TableInv checked.2 := by
      intro d
      rw [recorded.clkClientTbl]
      exact inv.tableInv d
    have others : checked.2.otherCurrent c (info.nextLevel c reqLevel) =
        info.otherCurrent c (info.nextLevel c reqLevel) := by
      unfold SwInfo.otherCurrent
      rw [recorded.clkClientTbl]
    have value : checked.2.aggregVal = info.demand c reqLevel (u32 rate.1) data.numHwBlocks :=
      recorded.aggregVal
    rw [recorded.clkClientTbl]
    refine ⟨tableInv.setEntry ((inv.tableInv c).commit usable), ?_, ?_⟩
    · change checked.2.aggregVal = (checked.2.setEntry c _).totalCurrent checked.2.aggregLevel
      rw [SwInfo.totalCurrent_setEntry, contribution_commit usable,
        recorded.aggregLevel, others, value, inv.demand_eq, counted, Nat.add_comm]
    · change checked.2.aggregVal < 2147483648
      rw [value]
      exact fits.demand
  · simp [plain.1] at allowed
  · simp [plain.1] at allowed

/-- Every call keeps the aggregate exact. -/
theorem Accounted.step (inv : Accounted info) (platform : Platform n) {call : Call}
    (plain : Plain platform info call) (released : Released platform info call) :
    Accounted (step platform info call) := by
  cases call with
  | register env desc => exact inv.sameSums (inv.tableInv.sameSums_register platform env desc)
  | setval env client clientData clkVal =>
    change Accounted (clkClientSetval platform env client clientData clkVal info).2
    rcases clkClientSetval_cases platform env client clientData clkVal info with
      same | ⟨c, reserve, set⟩ | ⟨c, data, rfl, rfl, usable, new⟩
    · rwa [same]
    · rw [set]
      exact inv.sameSums (inv.tableInv.sameSums_reserve c reserve)
    · rw [new]
      exact inv.setvalNew platform usable plain released
  | deregister client =>
    change Accounted (clkClientDeregister client info).2
    rcases clkClientDeregister_cases client info with
      same | ⟨c, rfl, ⟨-, set⟩ | ⟨last, entry, unusable, idle, level, set⟩⟩
    · rwa [same]
    · rw [set]
      exact inv.sameSums (inv.tableInv.sameSums_refCount c _)
    · rw [set]
      have drained := released c rfl last
      refine inv.sameSums (inv.tableInv.sameSums_setEntry (.of_idle unusable idle level) ?_)
      rw [drained, contribution_of_clkRate_eq_zero _ idle]

/-- With throttling disabled and sums that fit, the aggregate recorded by the manager is
the current of the registered clients in every run in which no current gets lost. -/
theorem aggregVal_eq_registeredCurrent (info : SwInfo n)
    (reaches : Reaches (guarded
      (fun info call => Plain platform info call ∧ Released platform info call) (step platform))
      (initSwClkMgr platform) info) :
    info.aggregVal = info.registeredCurrent := by
  have inv : Accounted info := by
    refine reaches.invariant (accounted_init platform) ?_
    rintro source call target inv ⟨⟨plain, released⟩, rfl⟩
    exact inv.step platform plain released
  rw [inv.tableInv.registeredCurrent_eq]
  exact inv.aggregVal

/-! ## A platform with one clock source -/

/-- A clock that runs at one rate and at the lowest corner. -/
def sampleDriver : ClkDriver where
  roundRate _ := 1000000
  getVoltage _ := 64

/-- A source that draws 100 mA at every level. -/
def samplePlatform : Platform 1 where
  nomClkSet _ := ⟨0, 5, 100 <<< 16, 0, 2⟩
  cornerTbl _ := ⟨1 <<< 16, 1 <<< 16, 1 <<< 16⟩
  vddCorner
    | .lowSvs => 64
    | .svs => 128
    | .svsL1 => 192
    | .nom => 256
    | .turbo => 384
  peakThreshold := 150
  clsidThresholdClients := []

/-- The registration of the client of the source. -/
def sampleRegister : Call :=
  .register ⟨sampleDriver, false, true, true⟩ ⟨0, 5, true, 0, 0, .high, false⟩

/-- A request of the client for a rate on one block. -/
def sampleSetval (enableThrottleFeature : Bool) (numHwBlocks clkVal : Nat) : Call :=
  .setval ⟨sampleDriver, enableThrottleFeature, ⟨fun _ => 0, fun _ => 0, true⟩, 0⟩ (some 0)
    (some ⟨numHwBlocks, false, .swDrv, 0, 0⟩) clkVal

/-- A client that takes its rate back before it leaves. -/
theorem aggregVal_eq_registeredCurrent_sample :
    ([sampleRegister, sampleSetval false 1 1000000, sampleSetval false 1 0,
      .deregister (some 0)].foldl (step samplePlatform) (initSwClkMgr samplePlatform)).aggregVal =
      ([sampleRegister, sampleSetval false 1 1000000, sampleSetval false 1 0,
        .deregister (some 0)].foldl (step samplePlatform)
        (initSwClkMgr samplePlatform)).registeredCurrent := by
  refine aggregVal_eq_registeredCurrent samplePlatform _ (Reaches.foldl ?_)
  refine ⟨⟨trivial, trivial⟩, ⟨⟨rfl, ?_⟩, ?_⟩, ⟨⟨rfl, ?_⟩, ?_⟩, ⟨trivial, ?_⟩, trivial⟩
  · intro c data reqLevel asks
    obtain ⟨rfl, rfl, rfl⟩ := Asks.unique (c := 0) asks rfl
    decide +kernel
  · intro c data reqLevel asks
    obtain ⟨rfl, rfl, rfl⟩ := Asks.unique (c := 0) asks rfl
    decide +kernel
  · intro c data reqLevel asks
    obtain ⟨rfl, rfl, rfl⟩ := Asks.unique (c := 0) asks rfl
    decide +kernel
  · intro c data reqLevel asks
    obtain ⟨rfl, rfl, rfl⟩ := Asks.unique (c := 0) asks rfl
    decide +kernel
  · intro c _
    obtain rfl : c = 0 := Subsingleton.elim c 0
    decide +kernel

/-- A client that leaves while it draws current leaves it in the aggregate. -/
theorem not_aggregVal_eq_of_deregister :
    ¬ ∀ info, Reaches (guarded (Plain samplePlatform) (step samplePlatform))
      (initSwClkMgr samplePlatform) info → info.aggregVal = info.registeredCurrent := by
  intro exact
  have left := exact ([sampleRegister, sampleSetval false 1 1000000, .deregister (some 0)].foldl
    (step samplePlatform) (initSwClkMgr samplePlatform)) (Reaches.foldl ?_)
  · revert left
    decide +kernel
  · refine ⟨trivial, ⟨rfl, ?_⟩, trivial, trivial⟩
    intro c data reqLevel asks
    obtain ⟨rfl, rfl, rfl⟩ := Asks.unique (c := 0) asks rfl
    decide +kernel

end Sm8650.Mmrm
