import Mathlib.Data.Set.Card
import Sm8650.IpaNat.CrossRef
import Sm8650.IpaNat.Nati

/-!
# What a copy carries over

`ipa_nati_copy_ipv4_tbl` with `migrate_rule`: every live rule of the source gets
one record of the destination. All of its fields arrive but `redirect`, which
the flags command of the insertion writes as zero after the CPU has stored it.
-/

namespace Sm8650.IpaNat

open Chains Function Drvi

@[simp]
theorem other_other (nmi : NatMemIn) : nmi.other.other = nmi := by
  cases nmi <;> rfl

theorem other_ne (nmi : NatMemIn) : nmi.other ≠ nmi := by
  cases nmi <;> decide

/-! ## Rule operations on a table that is known by its handle -/

/-- The static data after an operation on the rules of one table. -/
structure RuleCall (drvi : Drvi) (nmi : NatMemIn) (changed : IpaNatIp4TableCache)
    (after : Drvi) : Prop where
  caches : after.ipv4NatCache = (drvi.setTable nmi changed).ipv4NatCache
  pdns : after.pdns = drvi.pdns

section RuleCall

variable {kernel : Kernel} {drvi after : Drvi} {nmi : NatMemIn}
  {natTable changed : IpaNatIp4TableCache}

theorem natTable?_setTable (drvi : Drvi) (nmi : NatMemIn) (natTable : IpaNatIp4TableCache) :
    (drvi.setTable nmi natTable).natTable? nmi = some natTable := by
  simp [setTable, setCache, Drvi.natTable?]

theorem natTable?_setTable_other (drvi : Drvi) {nmi other : NatMemIn} (different : other ≠ nmi)
    (natTable : IpaNatIp4TableCache) :
    (drvi.setTable nmi natTable).natTable? other = drvi.natTable? other := by
  simp [setTable, setCache, Drvi.natTable?, different]

namespace RuleCall

theorem natTable? (call : RuleCall drvi nmi changed after) :
    after.natTable? nmi = some changed := by
  unfold Drvi.natTable?
  rw [call.caches]
  exact natTable?_setTable drvi nmi changed

theorem natTable?_other (call : RuleCall drvi nmi changed after) {other : NatMemIn}
    (different : other ≠ nmi) : after.natTable? other = drvi.natTable? other := by
  unfold Drvi.natTable?
  rw [call.caches]
  exact natTable?_setTable_other drvi different changed

end RuleCall

/-- `ipa_NATI_add_ipv4_rule` on the table of a handle. -/
theorem Drvi.addIpv4Rule_cases (kernel : Kernel) (present : drvi.natTable? nmi = some natTable)
    (chained : Chained natTable) (clntRule : IpaNatIpv4Rule) :
    let outcome := drvi.addIpv4Rule kernel (some nmi) clntRule
    ∃ changed, RuleCall drvi nmi changed outcome.2 ∧
      ((Addable (drvi.platform kernel) (kernel.callOk drvi.calls) drvi.hashToken natTable clntRule ∧
          ∃ slot indexSlot, outcome.1 = .ok (makeEntryHdl natTable.table slot) ∧
            Added (drvi.platform kernel) drvi.hashToken natTable clntRule slot indexSlot changed) ∨
        (¬ Addable (drvi.platform kernel) (kernel.callOk drvi.calls) drvi.hashToken natTable
            clntRule ∧
          (∃ errno, outcome.1 = .error errno) ∧ Refused natTable changed)) := by
  simp only [addIpv4Rule, present]
  exact ⟨_, ⟨rfl, rfl⟩, IpaNat.addIpv4Rule_cases (drvi.platform kernel)
    (kernel.callOk drvi.calls) drvi.hashToken chained clntRule⟩

end RuleCall

/-! ## Cleared tables -/

theorem chained_reset {natTable : IpaNatIp4TableCache}
    (sameSize : natTable.indexTable.size = natTable.table.size) : Chained natTable.reset := by
  refine ⟨sameSize, ⟨_, _, IpaTable.Sound.of_zeroed (fun _ => rfl) rfl rfl⟩,
    ⟨_, _, IpaTable.Sound.of_zeroed (fun _ => rfl) rfl rfl⟩, ?_⟩
  intro i enabled
  cases enabled

theorem not_live_reset (natTable : IpaNatIp4TableCache) (i : Nat) :
    ¬ Live natTable.reset.table i := by
  rintro ⟨enabled, _⟩
  cases enabled

/-! ## One rule -/

section MigrateRule

variable {kernel : Kernel} {nati next : Nati} {nmi : NatMemIn}
  {destination : IpaNatIp4TableCache} {hdl i : Nat} {natRule : IpaNatRule}

/-- The maps of the destination with one rule more. -/
def NatiMapPair.enter (maps : NatiMapPair) (origRuleHdl newRuleHdl : Nat) : NatiMapPair where
  orig2new := update maps.orig2new origRuleHdl (some newRuleHdl)
  new2orig := update maps.new2orig newRuleHdl (some origRuleHdl)

/-- One of the handles of a rule is taken. -/
def NatiMapPair.Clash (maps : NatiMapPair) (origRuleHdl newRuleHdl : Nat) : Prop :=
  maps.orig2new origRuleHdl ≠ none ∨ maps.new2orig newRuleHdl ≠ none

/-- The two ways in which a rule can be refused by the maps, and the one in which
it gets in. -/
theorem mapRule_cases (nati : Nati) (sub : NatMemIn) (origRuleHdl newRuleHdl : Nat) :
    let outcome := nati.mapRule sub origRuleHdl newRuleHdl
    ((nati.mapPairs sub).orig2new origRuleHdl ≠ none ∧ outcome = (.error .unspecified, nati)) ∨
      ((nati.mapPairs sub).orig2new origRuleHdl = none ∧
        (nati.mapPairs sub).new2orig newRuleHdl ≠ none ∧
        outcome = (.error .unspecified, nati.setMaps sub
          ⟨update (nati.mapPairs sub).orig2new origRuleHdl (some newRuleHdl),
            (nati.mapPairs sub).new2orig⟩)) ∨
      ((nati.mapPairs sub).orig2new origRuleHdl = none ∧
        (nati.mapPairs sub).new2orig newRuleHdl = none ∧
        outcome = (.ok (), nati.setMaps sub
          ((nati.mapPairs sub).enter origRuleHdl newRuleHdl))) := by
  simp only [Nati.mapRule, ipaNatMapAdd]
  cases forward : (nati.mapPairs sub).orig2new origRuleHdl with
  | some _ => exact .inl ⟨by simp, rfl⟩
  | none =>
    right
    cases backward : (nati.mapPairs sub).new2orig newRuleHdl with
    | some _ => exact .inl ⟨rfl, by simp, rfl⟩
    | none => exact .inr ⟨rfl, rfl, rfl⟩

/-- A rule that was copied: where it came from, where it went, and the object
afterwards. -/
structure Copied (kernel : Kernel) (nati : Nati) (nmi : NatMemIn)
    (destination : IpaNatIp4TableCache) (hdl : Nat) (natRule : IpaNatRule)
    (origRuleHdl slot indexSlot : Nat) (changed : IpaNatIp4TableCache) (next : Nati) :
    Prop where
  known : (nati.mapPairs nmi).new2orig hdl = some origRuleHdl
  accepted : ruleAccepted (nati.drvi.platform kernel) natRule.v4Rule = true
  added : Added (nati.drvi.platform kernel) nati.drvi.hashToken destination natRule.v4Rule
    slot indexSlot changed
  call : RuleCall nati.drvi nmi.other changed next.drvi
  newOrig : (nati.mapPairs nmi.other).orig2new origRuleHdl = none
  newRule : (nati.mapPairs nmi.other).new2orig (makeEntryHdl destination.table slot) = none
  object : next = ({ nati with drvi := next.drvi }.setCounter nmi.other
      (nati.totRulesInTable nmi.other + 1)).setMaps nmi.other
    ((nati.mapPairs nmi.other).enter origRuleHdl (makeEntryHdl destination.table slot))

/-- `migrate_rule` skips a dead head, copies the rule, or fails: because the handle
is not known, because the rule cannot be added, or because of the maps. -/
theorem migrateRule_cases (kernel : Kernel)
    (present : nati.drvi.natTable? nmi.other = some destination)
    (chained : Chained destination) (hdl : Nat) (natRule : IpaNatRule) (i : Nat) :
    let outcome := migrateRule kernel nmi (some nmi.other) nati hdl natRule i
    (IsDead natRule ∧ outcome = (.zero, nati)) ∨
      (¬ IsDead natRule ∧ outcome.1 = .zero ∧ ∃ origRuleHdl slot indexSlot changed,
        Copied kernel nati nmi destination hdl natRule origRuleHdl slot indexSlot changed
          outcome.2) ∨
      (¬ IsDead natRule ∧ (nati.mapPairs nmi).new2orig hdl = none ∧
        outcome = (.negative .unspecified, nati)) ∨
      (¬ IsDead natRule ∧ (nati.mapPairs nmi).new2orig hdl ≠ none ∧
        ¬ Addable (nati.drvi.platform kernel) (kernel.callOk nati.drvi.calls)
          nati.drvi.hashToken destination natRule.v4Rule ∧
        ∃ errno changed after, outcome = (.negative errno, { nati with drvi := after }) ∧
          RuleCall nati.drvi nmi.other changed after ∧ Refused destination changed) ∨
      (¬ IsDead natRule ∧ outcome.1 ≠ .zero ∧ ∃ origRuleHdl slot,
        (nati.mapPairs nmi).new2orig hdl = some origRuleHdl ∧
        (nati.mapPairs nmi.other).Clash origRuleHdl (makeEntryHdl destination.table slot) ∧
        destination.table.links.used slot = false) := by
  unfold migrateRule ipaNatMapFind
  by_cases dead : IsDead natRule
  · have invalid : natRule.protocol = ipahalNatInvalidProtocol := dead
    left
    exact ⟨dead, if_pos invalid⟩
  · have valid : ¬ natRule.protocol = ipahalNatInvalidProtocol := dead
    right
    simp only [if_neg valid]
    cases known : (nati.mapPairs nmi).new2orig hdl with
    | none => exact .inr (.inl ⟨dead, rfl, rfl⟩)
    | some origRuleHdl =>
      obtain ⟨changed, call, ⟨addable, slot, indexSlot, ret, added⟩ |
        ⟨notAddable, ⟨errno, ret⟩, refused⟩⟩ :=
        Drvi.addIpv4Rule_cases kernel present chained natRule.v4Rule
      · simp only [ret]
        generalize counting : ({ nati with drvi := (nati.drvi.addIpv4Rule kernel
          (some nmi.other) natRule.v4Rule).2 }.setCounter nmi.other
            (nati.totRulesInTable nmi.other + 1)) = counted
        have sameMaps : counted.mapPairs = nati.mapPairs := by rw [← counting]; rfl
        have sameDrvi : counted.drvi = (nati.drvi.addIpv4Rule kernel (some nmi.other)
          natRule.v4Rule).2 := by rw [← counting]; rfl
        rcases mapRule_cases counted nmi.other origRuleHdl
          (makeEntryHdl destination.table slot) with
          ⟨clash, failed⟩ | ⟨_, clash, failed⟩ | ⟨newOrig, newRule, mapped⟩
        · rw [failed]
          rw [sameMaps] at clash
          exact .inr (.inr (.inr ⟨dead, by simp, origRuleHdl, slot, rfl,
            .inl clash, added.slot_bounds.2.2⟩))
        · rw [failed]
          rw [sameMaps] at clash
          exact .inr (.inr (.inr ⟨dead, by simp, origRuleHdl, slot, rfl,
            .inr clash, added.slot_bounds.2.2⟩))
        · rw [mapped]
          rw [sameMaps] at newOrig newRule
          refine .inl ⟨dead, rfl, origRuleHdl, slot, indexSlot, changed, known,
            addable.accepted, added, ?_, newOrig, newRule, ?_⟩
          · rw [← sameDrvi] at call
            exact call
          · subst counting
            rfl
      · simp only [ret]
        exact .inr (.inr (.inl ⟨dead, by simp, notAddable, errno, changed, _, rfl, call, refused⟩))

/-! ## What arrives -/

/-- The fields that a copy is to have in common with its source. -/
structure SameRule (source copy : IpaNatRule) : Prop where
  privateIp : copy.privateIp = source.privateIp
  privatePort : copy.privatePort = source.privatePort
  targetIp : copy.targetIp = source.targetIp
  targetPort : copy.targetPort = source.targetPort
  publicPort : copy.publicPort = source.publicPort
  protocol : copy.protocol = source.protocol
  pdnIndex : copy.pdnIndex = source.pdnIndex
  redirect : copy.redirect = source.redirect
  enable : copy.enable = source.enable
  timeStamp : copy.timeStamp = source.timeStamp
  ucActivationIndex : copy.ucActivationIndex = source.ucActivationIndex
  s : copy.s = source.s
  ucp : copy.ucp = source.ucp
  srcOnly : copy.srcOnly = source.srcOnly
  dstOnly : copy.dstOnly = source.dstOnly

/-- A copy with every field but `redirect`, which is clear. -/
def CopyOf (source copy : IpaNatRule) : Prop :=
  SameRule { source with redirect := false } copy

theorem copyOf_of_content {source copy moved : IpaNatRule} (copyOf : CopyOf source copy)
    (same : moved.content = copy.content) : CopyOf source moved := by
  obtain ⟨h1, h2, h3, h4, h5, h6, h7, h8, h9, h10, h11, h12, h13, h14, h15⟩ := copyOf
  simp only [IpaNatRule.content, IpaNatRule.unlinked] at same
  constructor <;> simp_all

theorem CopyOf.sameRule_iff {source copy : IpaNatRule} (copyOf : CopyOf source copy) :
    SameRule source copy ↔ source.redirect = false := by
  have cleared : copy.redirect = false := copyOf.redirect
  constructor
  · intro same
    rw [← same.redirect, cleared]
  · intro unset
    have unchanged : { source with redirect := false } = source := by rw [← unset]
    rw [← unchanged]
    exact copyOf

/-- What is installed for a record in use, whatever was in the slot before. -/
theorem copyOf_installedRule (platform : Platform) {natRule : IpaNatRule}
    (enabled : natRule.enable = true) (indxTblEntry prevIndex : Nat) (old : IpaNatRule) :
    CopyOf natRule
      ((installedRule platform natRule.v4Rule indxTblEntry old).setPrev prevIndex) := by
  have narrow : ∀ {w : Nat} (v : Nat) (field : BitVec w), w ≤ v →
      (field.setWidth v).setWidth w = field := by
    intro w v field wider
    rw [BitVec.setWidth_setWidth_of_le _ wider, BitVec.setWidth_eq]
  constructor
  · rfl
  · rfl
  · rfl
  · rfl
  · rfl
  · rfl
  · exact narrow 8 natRule.pdnIndex (by decide)
  · rfl
  · exact enabled.symm
  · exact narrow 32 natRule.timeStamp (by decide)
  · exact narrow 16 natRule.ucActivationIndex (by decide)
  · rfl
  · rfl
  · rfl
  · rfl

namespace Copied

variable {origRuleHdl slot indexSlot : Nat} {changed : IpaNatIp4TableCache}

section

variable (copied : Copied kernel nati nmi destination hdl natRule origRuleHdl slot indexSlot changed next)

include copied

theorem counter : next.totRulesInTable nmi.other = nati.totRulesInTable nmi.other + 1 := by
  rw [copied.object]
  simp [Nati.setMaps, Nati.setCounter]

/-- The record that a copied rule got. -/
theorem copyOf_slot (chained : Chained destination) (enabled : natRule.enable = true) :
    CopyOf natRule (changed.table.records slot) := by
  obtain ⟨_, _, sound⟩ := chained.tableSound
  obtain ⟨prevIndex, record⟩ := copied.added.table.record_slot sound
  rw [record]
  exact copyOf_installedRule _ enabled _ _ _

end

end Copied

end MigrateRule

/-! ## All rules -/

/-- The live records among the first `k` slots. -/
def liveBelow (source : IpaTable IpaNatRule) (k : Nat) : Set Nat :=
  {i | i < k ∧ Live source i}

section LiveBelow

variable {source : IpaTable IpaNatRule} {k : Nat}

theorem liveBelow_zero (source : IpaTable IpaNatRule) : liveBelow source 0 = ∅ := by
  simp [liveBelow]

theorem liveBelow_succ_live (live : Live source k) :
    liveBelow source (k + 1) = insert k (liveBelow source k) := by
  ext i
  constructor
  · rintro ⟨below, liveI⟩
    by_cases same : i = k
    · exact .inl same
    · exact .inr ⟨by omega, liveI⟩
  · rintro (rfl | ⟨below, liveI⟩)
    · exact ⟨Nat.lt_succ_self i, live⟩
    · exact ⟨by omega, liveI⟩

theorem liveBelow_succ_of_not_live (notLive : ¬ Live source k) :
    liveBelow source (k + 1) = liveBelow source k := by
  ext i
  constructor
  · rintro ⟨below, live⟩
    refine ⟨?_, live⟩
    have different : i ≠ k := by
      rintro rfl
      exact notLive live
    omega
  · rintro ⟨below, live⟩
    exact ⟨by omega, live⟩

theorem liveBelow_finite (source : IpaTable IpaNatRule) (k : Nat) : (liveBelow source k).Finite :=
  (Set.finite_Iio k).subset fun _ member => member.1

theorem not_mem_liveBelow (source : IpaTable IpaNatRule) (k : Nat) : k ∉ liveBelow source k :=
  fun member => Nat.lt_irrefl k member.1

end LiveBelow

/-- The copies of the live records among the first `k` slots, in the slots given
by `place`, with their number. -/
structure MigratedUpTo (source : IpaTable IpaNatRule) (k : Nat) (place : Nat → Nat)
    (copy : IpaNatIp4TableCache) (count : BitVec 32) : Prop where
  chained : Chained copy
  placed : Set.BijOn place (liveBelow source k) {j | Live copy.table j}
  copied : ∀ i ∈ liveBelow source k, CopyOf (source.records i) (copy.table.records (place i))
  counted : count = BitVec.ofNat 32 (liveBelow source k).ncard

namespace MigratedUpTo

variable {source : IpaTable IpaNatRule} {k : Nat} {place : Nat → Nat}
  {copy : IpaNatIp4TableCache} {count : BitVec 32}

theorem zero (chained : Chained copy) (empty : ∀ j, ¬ Live copy.table j) :
    MigratedUpTo source 0 place copy 0 := by
  have none : {j | Live copy.table j} = ∅ := by
    ext j
    simpa using empty j
  refine ⟨chained, ?_, ?_, ?_⟩
  · rw [liveBelow_zero, none]
    exact Set.bijOn_empty _
  · simp [liveBelow_zero]
  · simp [liveBelow_zero]

theorem skip (migrated : MigratedUpTo source k place copy count) (notLive : ¬ Live source k) :
    MigratedUpTo source (k + 1) place copy count := by
  obtain ⟨chained, placed, copied, counted⟩ := migrated
  rw [← liveBelow_succ_of_not_live notLive] at placed copied counted
  exact ⟨chained, placed, copied, counted⟩

/-- One more live record has been copied. -/
theorem succ (migrated : MigratedUpTo source k place copy count) (live : Live source k)
    {platform : Platform} {hashToken slot indexSlot : Nat} {clntRule : IpaNatIpv4Rule}
    {changed : IpaNatIp4TableCache} (accepted : ruleAccepted platform clntRule = true)
    (added : Added platform hashToken copy clntRule slot indexSlot changed)
    (copyOf : CopyOf (source.records k) (changed.table.records slot)) :
    MigratedUpTo source (k + 1) (update place k slot) changed (count + 1) := by
  obtain ⟨chained, placed, copied, counted⟩ := migrated
  obtain ⟨rank, head, sound⟩ := chained.tableSound
  have fresh : slot ∉ {j | Live copy.table j} := by
    intro liveSlot
    have unused := added.slot_bounds.2.2
    rw [liveSlot.1] at unused
    cases unused
  have sameOnOld : Set.EqOn place (update place k slot) (liveBelow source k) := by
    intro i member
    have different : i ≠ k := Nat.ne_of_lt member.1
    rw [update_of_ne different]
  have liveAfter : {j | Live changed.table j} = insert slot {j | Live copy.table j} := by
    ext j
    exact added.live_iff accepted sound j
  refine ⟨added.chained accepted chained, ?_, ?_, ?_⟩
  · have extended := (placed.congr sameOnOld).insert
      (show update place k slot k ∉ _ by rw [update_self]; exact fresh)
    rw [update_self] at extended
    rw [liveBelow_succ_live live, liveAfter]
    exact extended
  · rw [liveBelow_succ_live live]
    intro i member
    rcases Set.mem_insert_iff.mp member with rfl | old
    · rw [update_self]
      exact copyOf
    · rw [← sameOnOld old]
      have different : place i ≠ slot := by
        intro same
        exact fresh (same ▸ placed.mapsTo old)
      exact copyOf_of_content (copied i old)
        (content_of_unlinked (added.table.unlinked_other different))
  · rw [liveBelow_succ_live live,
      Set.ncard_insert_of_notMem (not_mem_liveBelow source k) (liveBelow_finite source k),
      counted]
    apply BitVec.eq_of_toNat_eq
    simp

end MigratedUpTo

variable {table : IpaTable IpaNatRule}

section Copy

variable {kernel : Kernel} {nati next : Nati} {src : NatMemIn}
  {source destination : IpaNatIp4TableCache}

/-- The object when the walk of a copy starts. -/
def clearedFor (nati : Nati) (src : NatMemIn) (destination : IpaNatIp4TableCache) : Nati :=
  { nati with drvi := nati.drvi.setTable src.other destination.reset }

/-- The walk of a copy. -/
def copyWalk (kernel : Kernel) (nati : Nati) (src : NatMemIn)
    (source destination : IpaNatIp4TableCache) : WalkResult × Nati :=
  ipaTableWalkLoop source.table .slotFilled (migrateRule kernel src (some src.other))
    source.table.size.totTblEnts 0 (clearedFor nati src destination)

/-- A copy between two tables that are there is its walk. -/
theorem copyIpv4Tbl_eq (sourceTable : nati.drvi.natTable? src = some source)
    (destinationTable : nati.drvi.natTable? src.other = some destination)
    (sourceCnt : (nati.drvi.ipv4NatCache src).tableCnt ≠ 0)
    (destinationCnt : (nati.drvi.ipv4NatCache src.other).tableCnt ≠ 0) :
    ipaNatiCopyIpv4Tbl kernel nati (some src) (some src.other) =
      ((copyWalk kernel nati src source destination).1.ret,
        (copyWalk kernel nati src source destination).2) := by
  have different := other_ne src
  have nonempty : 0 < source.table.size.totTblEnts :=
    Nat.lt_of_le_of_lt (Nat.zero_le _) source.table.size.base_lt_tot
  have sameCnt : ((nati.drvi.setTable src.other destination.reset).ipv4NatCache src).tableCnt =
      (nati.drvi.ipv4NatCache src).tableCnt := by
    simp [setTable, setCache, different.symm]
  have sameTable := natTable?_setTable_other nati.drvi different.symm destination.reset
  simp only [ipaNatiCopyIpv4Tbl, ipaNATIClearIpv4Tbl, startedCache, if_neg destinationCnt,
    destinationTable, Nati.walkIpv4Tbl, sameCnt, if_neg sourceCnt, sameTable, sourceTable,
    ipaTableWalk, if_pos nonempty]
  rfl

/-- A copy that succeeds finds both tables started. -/
theorem started_of_copy
    (copied : (ipaNatiCopyIpv4Tbl kernel nati (some src) (some src.other)).1 = .ok ())
    (destinationTable : nati.drvi.natTable? src.other = some destination) :
    (nati.drvi.ipv4NatCache src).tableCnt ≠ 0 ∧
      (nati.drvi.ipv4NatCache src.other).tableCnt ≠ 0 := by
  have different := other_ne src
  have sameCnt : ((nati.drvi.setTable src.other destination.reset).ipv4NatCache src).tableCnt =
      (nati.drvi.ipv4NatCache src).tableCnt := by
    simp [setTable, setCache, different.symm]
  by_cases destinationCnt : (nati.drvi.ipv4NatCache src.other).tableCnt = 0
  · simp [ipaNatiCopyIpv4Tbl, ipaNATIClearIpv4Tbl, startedCache, destinationCnt] at copied
  · by_cases sourceCnt : (nati.drvi.ipv4NatCache src).tableCnt = 0
    · simp [ipaNatiCopyIpv4Tbl, ipaNATIClearIpv4Tbl, startedCache, destinationCnt,
        destinationTable, Nati.walkIpv4Tbl, sameCnt, sourceCnt] at copied
    · exact ⟨sourceCnt, destinationCnt⟩

/-- A walk calls `migrate_rule` at the records in use. -/
theorem callBackAt_slotFilled (entry : IpaNatRule) :
    callBackAt .slotFilled entry = entry.enable := rfl

/-- What every step of a copy keeps, up to the record at which it stops. -/
def Migrating (src : NatMemIn) (source : IpaTable IpaNatRule) (k : Nat) (reached : Nati) :
    Prop :=
  ∃ place copy, reached.drvi.natTable? src.other = some copy ∧
    MigratedUpTo source k place copy (reached.totRulesInTable src.other)

theorem Migrating.zero (sameSize : destination.indexTable.size = destination.table.size)
    (counter : nati.totRulesInTable src.other = 0) (table : IpaTable IpaNatRule) :
    Migrating src table 0 (clearedFor nati src destination) := by
  refine ⟨id, destination.reset, natTable?_setTable _ _ _, ?_⟩
  have zeroCount : (clearedFor nati src destination).totRulesInTable src.other = 0 := counter
  rw [zeroCount]
  exact MigratedUpTo.zero (chained_reset sameSize) (not_live_reset destination)

theorem Migrating.called {k hdl : Nat} {reached : Nati} (migrating : Migrating src table k reached)
    (filled : callBackAt .slotFilled (table.records k) = true)
    (outcome : migrateRule kernel src (some src.other) reached hdl (table.records k) k =
      (.zero, next)) : Migrating src table (k + 1) next := by
  obtain ⟨place, copy, present, migrated⟩ := migrating
  rcases migrateRule_cases kernel present migrated.chained hdl (table.records k) k with
    ⟨dead, skipped⟩ | ⟨alive, _, origRuleHdl, slot, indexSlot, changed, copied⟩ |
    ⟨_, _, failed⟩ | ⟨_, _, _, errno, changed, after, failed, _⟩ | ⟨_, failed, _⟩
  · rw [outcome] at skipped
    cases skipped
    exact ⟨place, copy, present, migrated.skip fun live => live.2 dead⟩
  · rw [outcome] at copied
    have live : Live table k := ⟨filled, alive⟩
    refine ⟨update place k slot, changed, copied.call.natTable?, ?_⟩
    rw [copied.counter]
    exact migrated.succ live copied.accepted copied.added
      (copied.copyOf_slot migrated.chained filled)
  · rw [outcome] at failed
    cases failed
  · rw [outcome] at failed
    cases failed
  · rw [outcome] at failed
    exact absurd rfl failed

theorem Migrating.passed {k : Nat} {reached : Nati} (migrating : Migrating src table k reached)
    (empty : callBackAt .slotFilled (table.records k) = false) :
    Migrating src table (k + 1) reached := by
  obtain ⟨place, copy, present, migrated⟩ := migrating
  refine ⟨place, copy, present, migrated.skip fun live => ?_⟩
  have enabled : (table.records k).enable = true := live.1
  rw [callBackAt_slotFilled, enabled] at empty
  cases empty

/-- After a copy that succeeded, every live record of the source has its copy. -/
theorem migrated_of_copy (sourceTable : nati.drvi.natTable? src = some source)
    (destinationTable : nati.drvi.natTable? src.other = some destination)
    (sameSize : destination.indexTable.size = destination.table.size)
    (counter : nati.totRulesInTable src.other = 0)
    (copied : ipaNatiCopyIpv4Tbl kernel nati (some src) (some src.other) = (.ok (), next)) :
    Migrating src source.table source.table.size.totTblEnts next := by
  obtain ⟨sourceCnt, destinationCnt⟩ := started_of_copy (by rw [copied]) destinationTable
  rw [copyIpv4Tbl_eq sourceTable destinationTable sourceCnt destinationCnt] at copied
  rcases walkLoop_cases (Migrating src source.table)
      (fun i reached next migrating filled outcome => migrating.called filled outcome)
      (fun i reached migrating empty => migrating.passed empty)
      source.table.size.totTblEnts 0 (clearedFor nati src destination)
      (Migrating.zero sameSize counter source.table) with
    ⟨_, migrating⟩ | ⟨i, reached, _, _, _, stopped, _⟩
  · rw [Nat.zero_add] at migrating
    have same : (copyWalk kernel nati src source destination).2 = next :=
      congrArg Prod.snd copied
    rw [← same]
    exact migrating
  · have ret : (copyWalk kernel nati src source destination).1.ret = .ok () :=
      congrArg Prod.fst copied
    cases result : (copyWalk kernel nati src source destination).1 with
    | zero => exact absurd result stopped
    | positive index =>
      rw [result] at ret
      cases ret
    | negative errno =>
      rw [result] at ret
      cases ret

end Copy

/-- The live rules of a copy correspond one to one to those of its source, field
by field, and the counter is their number. -/
def PreservesRules (source copy : IpaTable IpaNatRule) (count : BitVec 32) : Prop :=
  (∃ place : Nat → Nat, Set.BijOn place {i | Live source i} {j | Live copy j} ∧
      ∀ i, Live source i → SameRule (source.records i) (copy.records (place i))) ∧
    count.toNat = {i | Live source i}.ncard

section PreservesRules

variable {source : IpaTable IpaNatRule}

/-- No record outside of a table is in use. -/
theorem ChainInvariant.used_lt (invariant : ChainInvariant source) {i : Nat}
    (used : source.links.used i = true) : i < source.size.totTblEnts := by
  have larger := source.size.base_lt_tot
  by_cases atBase : i < source.size.tableEntries
  · omega
  · obtain ⟨start, ⟨startBase, startUsed, slots, follows, member⟩, _⟩ :=
      invariant.chains.onOneChain i (by omega) used
    obtain ⟨rest, chain, _, members⟩ := invariant.chains.chain start startBase startUsed
    rw [follows.unique chain] at member
    rcases List.mem_cons.mp member with rfl | inRest
    · omega
    · exact (members i inRest).2.1

theorem liveBelow_tot (invariant : ChainInvariant source) :
    liveBelow source source.size.totTblEnts = {i | Live source i} := by
  ext i
  exact ⟨fun member => member.2, fun live => ⟨invariant.used_lt live.1, live⟩⟩

theorem totTblEnts_le (size : TableSize) : size.totTblEnts ≤ 8192 := by
  have base := size.baseLe
  have expn := size.expnLe
  unfold TableSize.totTblEnts
  omega

/-- The number of live records fits the counter. -/
theorem ncard_liveBelow_lt (source : IpaTable IpaNatRule) :
    (liveBelow source source.size.totTblEnts).ncard < 2 ^ 32 := by
  have bound : (liveBelow source source.size.totTblEnts).ncard ≤
      (↑(Finset.range source.size.totTblEnts) : Set Nat).ncard :=
    Set.ncard_le_ncard (fun _ member => Finset.mem_coe.mpr (Finset.mem_range.mpr member.1))
  rw [Set.ncard_coe_finset, Finset.card_range] at bound
  have small := totTblEnts_le source.size
  omega

theorem MigratedUpTo.preservesRules_iff {place : Nat → Nat} {copy : IpaNatIp4TableCache}
    {count : BitVec 32} (migrated : MigratedUpTo source source.size.totTblEnts place copy count)
    (invariant : ChainInvariant source) :
    PreservesRules source copy.table count ↔
      ∀ i, Live source i → (source.records i).redirect = false := by
  obtain ⟨_, placed, copied, counted⟩ := migrated
  have fits := ncard_liveBelow_lt source
  have number : count.toNat = {i | Live source i}.ncard := by
    rw [counted, BitVec.toNat_ofNat, Nat.mod_eq_of_lt fits, liveBelow_tot invariant]
  rw [liveBelow_tot invariant] at placed copied
  constructor
  · rintro ⟨⟨other, otherPlaced, same⟩, _⟩ i live
    -- Every live record of the copy is the copy of some rule, so its flag is clear.
    obtain ⟨origin, originLive, lands⟩ := placed.surjOn (otherPlaced.mapsTo live)
    have cleared : (copy.table.records (place origin)).redirect = false :=
      (copied origin originLive).redirect
    rw [lands, (same i live).redirect] at cleared
    exact cleared
  · intro unset
    refine ⟨⟨place, placed, ?_⟩, number⟩
    intro i live
    exact (copied i live).sameRule_iff.mpr (unset i live)

/-- A copy that succeeds preserves the rules of a well chained source exactly when
the hardware has set `redirect` in none of them. -/
theorem copyIpv4Tbl_preservesRules_iff {kernel : Kernel} {nati next : Nati} {src : NatMemIn}
    {source destination : IpaNatIp4TableCache}
    (sourceTable : nati.drvi.natTable? src = some source)
    (invariant : ChainInvariant source.table)
    (destinationTable : nati.drvi.natTable? src.other = some destination)
    (sameSize : destination.indexTable.size = destination.table.size)
    (counter : nati.totRulesInTable src.other = 0)
    (copied : ipaNatiCopyIpv4Tbl kernel nati (some src) (some src.other) = (.ok (), next)) :
    ∃ copy, next.drvi.natTable? src.other = some copy ∧
      (PreservesRules source.table copy.table (next.totRulesInTable src.other) ↔
        ∀ i, Live source.table i → (source.table.records i).redirect = false) := by
  obtain ⟨place, copy, present, migrated⟩ :=
    migrated_of_copy sourceTable destinationTable sameSize counter copied
  exact ⟨copy, present, migrated.preservesRules_iff invariant⟩

/-- An SRAM table with one rule, whose `redirect` flag the hardware may have set. -/
def sampleSource (redirect : Bool) : IpaNatIp4TableCache :=
  let natTable := (natCall samplePlatform (NatState.create .sram smallSize 69)
    (.add (sampleRule 1) true)).natTable
  { natTable with
    table := natTable.table.store 1 { natTable.table.records 1 with redirect := redirect } }

/-- A kernel that refuses nothing. -/
def sampleKernel : Kernel where
  hwV4 := true
  sramMemAvailableForNat := 300
  callOk := fun _ => true

/-- The handle of slot 1 in SRAM, as a map. -/
def sampleMap : RuleMap := update (fun _ => none) 32770 (some 32770)

/-- A hybrid object with one rule in SRAM and none in DDR. -/
def sampleNati (redirect : Bool) : Nati :=
  { Nati.init (fun _ => 1) with
    currState := .hybrid
    mapPairs := update (fun _ => NatiMapPair.cleared) .sram ⟨sampleMap, sampleMap⟩
    drvi :=
      { init (fun _ => 1) with
        ipv4NatCache := fun nmi =>
          match nmi with
          | .ddr => ⟨true, 1, some (IpaNatIp4TableCache.create .ddr smallSize)⟩
          | .sram => ⟨true, 1, some (sampleSource redirect)⟩ } }

/-- The flag is no part of the chains. -/
theorem IpaTable.Sound.store_redirect {rank head : Nat → Nat}
    (sound : table.Sound rank head) (slot : Nat) (redirect : Bool) :
    (table.store slot { table.records slot with redirect := redirect }).Sound rank head :=
  sound.store rfl rfl rfl

theorem sampleSource_chainInvariant (redirect : Bool) :
    ChainInvariant (sampleSource redirect).table := by
  have created : Chained (NatState.create .sram smallSize 69).natTable :=
    chained_create .sram smallSize
  have chained := chained_natCall samplePlatform created (.add (sampleRule 1) true)
  obtain ⟨rank, head, sound⟩ := chained.tableSound
  exact (sound.store_redirect 1 redirect).chainInvariant

theorem eq_ok_of_isOk {result : NatiResult} (passed : result.1.isOk = true) :
    result = (.ok (), result.2) := by
  obtain ⟨ret, nati⟩ := result
  cases ret with
  | ok _ => rfl
  | error _ => cases passed

theorem sampleNati_copied (redirect : Bool) :
    ipaNatiCopyIpv4Tbl sampleKernel (sampleNati redirect) (some .sram) (some .ddr) =
      (.ok (), (ipaNatiCopyIpv4Tbl sampleKernel (sampleNati redirect) (some .sram)
        (some .ddr)).2) := by
  have passed : (ipaNatiCopyIpv4Tbl sampleKernel (sampleNati redirect) (some .sram)
      (some .ddr)).1.isOk = true := by
    cases redirect <;> decide +kernel
  exact eq_ok_of_isOk passed

theorem copyIpv4Tbl_preservesRules_iff_sample :
    let next := (ipaNatiCopyIpv4Tbl sampleKernel (sampleNati false) (some .sram)
      (some .ddr)).2
    ∃ copy, next.drvi.natTable? .ddr = some copy ∧
      (PreservesRules (sampleSource false).table copy.table (next.totRulesInTable .ddr) ↔
        ∀ i, Live (sampleSource false).table i →
          ((sampleSource false).table.records i).redirect = false) := by
  have sourceTable : (sampleNati false).drvi.natTable? .sram = some (sampleSource false) := rfl
  have destinationTable : (sampleNati false).drvi.natTable? NatMemIn.sram.other =
      some (IpaNatIp4TableCache.create .ddr smallSize) := rfl
  exact copyIpv4Tbl_preservesRules_iff sourceTable (sampleSource_chainInvariant false)
    destinationTable rfl rfl (sampleNati_copied false)

/-- A rule that the hardware has marked for redirection loses the mark. -/
theorem not_forall_copyIpv4Tbl_preservesRules :
    ¬ ∀ (kernel : Kernel) (nati next : Nati) (src : NatMemIn)
      (source destination copy : IpaNatIp4TableCache),
      nati.drvi.natTable? src = some source → ChainInvariant source.table →
      nati.drvi.natTable? src.other = some destination →
      destination.indexTable.size = destination.table.size →
      nati.totRulesInTable src.other = 0 →
      ipaNatiCopyIpv4Tbl kernel nati (some src) (some src.other) = (.ok (), next) →
      next.drvi.natTable? src.other = some copy →
      PreservesRules source.table copy.table (next.totRulesInTable src.other) := by
  intro claim
  have sourceTable : (sampleNati true).drvi.natTable? .sram = some (sampleSource true) := rfl
  have destinationTable : (sampleNati true).drvi.natTable? NatMemIn.sram.other =
      some (IpaNatIp4TableCache.create .ddr smallSize) := rfl
  obtain ⟨place, copy, present, migrated⟩ :=
    migrated_of_copy sourceTable destinationTable rfl rfl (sampleNati_copied true)
  have preserves := claim sampleKernel (sampleNati true) _ .sram
    (sampleSource true) _ copy sourceTable (sampleSource_chainInvariant true)
    destinationTable rfl rfl (sampleNati_copied true) present
  have unset := (migrated.preservesRules_iff (sampleSource_chainInvariant true)).mp preserves 1
    (by decide +kernel)
  cases unset

end PreservesRules

end Sm8650.IpaNat
