import Sm8650.IpaNat.Machine

/-!
# Rules lost by a failed switch

A switch moves the focus of the hardware, empties the maps of the destination
and only then copies the rules. Its failure is not seen by the callback that
asked for it, which goes on with the destination. So the rule at which a copy
stopped can no longer be reached under the handle that the application holds.
-/

namespace Sm8650.IpaNat

open Transition Function Nati

/-! ## Votes and changes of focus -/

/-- An object whose rules, maps and handles are those of another one. -/
structure Untouched (nati after : Nati) : Prop where
  maps : after.mapPairs = nati.mapPairs
  counters : after.totRulesInTable = nati.totRulesInTable
  handles : after.memTblHdl = nati.memTblHdl
  hold : after.holdState = nati.holdState
  out : after.out = nati.out
  tables : SameTables nati.drvi after.drvi

namespace Untouched

variable {nati middle after : Nati}

theorem refl (nati : Nati) : Untouched nati nati :=
  ⟨rfl, rfl, rfl, rfl, rfl, SameTables.refl _⟩

theorem trans (first : Untouched nati middle) (second : Untouched middle after) :
    Untouched nati after where
  maps := second.maps.trans first.maps
  counters := second.counters.trans first.counters
  handles := second.handles.trans first.handles
  hold := second.hold.trans first.hold
  out := second.out.trans first.out
  tables := first.tables.trans second.tables

end Untouched

section Untouched

variable (kernel : Kernel) (nati : Nati)

theorem voteClock_untouched : Untouched nati (nati.voteClock kernel).2 :=
  ⟨rfl, rfl, rfl, rfl, rfl, voteClock_sameTables kernel nati.drvi⟩

theorem voteClock_currState : (nati.voteClock kernel).2.currState = nati.currState := rfl

theorem setState_untouched (state : NatiState) : Untouched nati (nati.setState state) :=
  ⟨rfl, rfl, rfl, rfl, rfl, SameTables.refl _⟩

theorem smGoTo_untouched (nmi : NatMemIn) (state : NatiState) :
    Untouched nati (smGoTo kernel nmi state nati).2 := by
  have posted : Untouched nati { nati with
      drvi := (nati.drvi.ipaNATIPostIpv4InitCmd kernel (nati.memTblHdl nmi)).2 } :=
    ⟨rfl, rfl, rfl, rfl, rfl, postIpv4InitCmd_sameTables kernel nati.drvi _⟩
  unfold smGoTo
  simp only
  split
  · exact posted
  · exact posted.trans (setState_untouched _ state)

/-- A callback that touches nothing, run through the machine. -/
theorem runCallback_untouched (vote : Bool) {smCb : Nati → NatiResult}
    (untouched : ∀ nati, Untouched nati (smCb nati).2) :
    Untouched nati (runCallback kernel vote smCb nati).2 := by
  have voted := voteClock_untouched kernel nati
  unfold runCallback
  simp only
  split
  · split
    · exact voted
    · exact (voted.trans (untouched _)).trans (voteClock_untouched kernel _)
  · exact untouched nati

/-- The trigger that moves the focus away from a memory type. -/
def goToOther : NatMemIn → NatiTrigger
  | .sram => .gotoDdr
  | .ddr => .gotoSram

theorem goToOther_untouched (depth : Nat) (src : NatMemIn) :
    Untouched nati (statemachAt kernel depth (goToOther src) nati).2 := by
  cases depth with
  | zero => exact Untouched.refl nati
  | succ depth =>
    have undefined : ∀ nati, Untouched nati (smUndef nati).2 := fun _ => Untouched.refl _
    have ddr : ∀ nati, Untouched nati (smGoToDdr kernel nati).2 :=
      fun nati => smGoTo_untouched kernel nati .ddr .hybridDdr
    have sram : ∀ nati, Untouched nati (smGoToSram kernel nati).2 :=
      fun nati => smGoTo_untouched kernel nati .sram .hybrid
    refine runCallback_untouched kernel nati _ ?_
    cases src with
    | sram =>
      cases nati.currState with
      | hybrid | hybridDdr => exact ddr
      | null | ddrOnly | sramOnly => exact undefined
    | ddr =>
      cases nati.currState with
      | hybrid | hybridDdr => exact sram
      | null | ddrOnly | sramOnly => exact undefined

end Untouched

/-! ## The copy of a switch -/

/-- The hybrid state in which a memory type is active. -/
def activeState : NatMemIn → NatiState
  | .sram => .hybrid
  | .ddr => .hybridDdr

/-- The object when the switch that a trigger `TBL_SWITCH` asks for starts to copy. -/
def switchStart (kernel : Kernel) (nati : Nati) (src : NatMemIn) : Nati :=
  (statemachAt kernel 1 (goToOther src) (nati.voteClock kernel).2).2.forgetRules src.other

/-- The object after a switch that got the vote of the clock. -/
def switchEnd (kernel : Kernel) (nati : Nati) (src : NatMemIn) : Nati :=
  let start := switchStart kernel nati src
  let copied := ipaNatiCopyIpv4Tbl kernel start (start.memTblHdl src)
    (start.memTblHdl src.other)
  ((copied.2.countSwitch nati.chooseMemSub copied.1.isOk).voteClock kernel).2

theorem tblSwitch_eq {kernel : Kernel} {nati : Nati} {src : NatMemIn}
    (active : nati.currState = activeState src) (voted : (nati.voteClock kernel).1 = .ok ()) :
    statemachAt kernel 2 .tblSwitch nati = (.ok (), switchEnd kernel nati src) := by
  have gone : ∀ nati, (statemachAt kernel 1 (goToOther src) nati).1 = .ok () := by
    intro nati
    simp only [statemachAt, runCallback]
    split
    · split <;> rfl
    · rfl
  cases src with
  | sram =>
    have moved := gone (nati.voteClock kernel).2
    simp only [activeState] at active
    simp only [goToOther] at moved
    rw [statemachAt]
    simp only [runCallback, voted, active, stateMachTbl, smSwitchFromSramToDdr, smSwitch, moved]
    rfl
  | ddr =>
    have moved := gone (nati.voteClock kernel).2
    simp only [activeState] at active
    simp only [goToOther] at moved
    rw [statemachAt]
    simp only [runCallback, voted, active, stateMachTbl, smSwitchFromDdrToSram, smSwitch, moved]
    rfl

theorem switchStart_maps (kernel : Kernel) (nati : Nati) (src : NatMemIn) :
    (switchStart kernel nati src).mapPairs src = nati.mapPairs src ∧
      (switchStart kernel nati src).mapPairs src.other = NatiMapPair.cleared ∧
      (switchStart kernel nati src).totRulesInTable src.other = 0 ∧
      (switchStart kernel nati src).memTblHdl = nati.memTblHdl ∧
      SameTables nati.drvi (switchStart kernel nati src).drvi := by
  have moved := (voteClock_untouched kernel nati).trans
    (goToOther_untouched kernel (nati.voteClock kernel).2 1 src)
  have different := other_ne src
  refine ⟨?_, ?_, ?_, moved.handles, moved.tables⟩
  · simp [switchStart, forgetRules, setMaps, setCounter, different.symm, moved.maps]
  · simp [switchStart, forgetRules, setMaps]
  · simp [switchStart, forgetRules, setMaps, setCounter]

/-! ## Rules before and after a change of one table -/

/-- The live records of a table with their handles were there before. -/
structure LiveBefore (before after : IpaNatIp4TableCache) : Prop where
  size : after.table.size = before.table.size
  nmi : after.table.nmi = before.table.nmi
  live : ∀ i, Live after.table i → Live before.table i

namespace LiveBefore

variable {before after : IpaNatIp4TableCache}

theorem refl (natTable : IpaNatIp4TableCache) : LiveBefore natTable natTable :=
  ⟨rfl, rfl, fun _ live => live⟩

end LiveBefore

/-- Every table that is there was there before, with all its live records. -/
def NoneNew (drvi after : Drvi) : Prop :=
  ∀ nmi natTable, after.natTable? nmi = some natTable →
    ∃ before, drvi.natTable? nmi = some before ∧ LiveBefore before natTable

theorem SameTables.noneNew {drvi after : Drvi} (same : SameTables drvi after) :
    NoneNew drvi after := by
  intro nmi natTable present
  rw [same.tables] at present
  exact ⟨natTable, present, LiveBefore.refl natTable⟩

theorem NoneNew.trans {drvi middle after : Drvi} (first : NoneNew drvi middle)
    (second : NoneNew middle after) : NoneNew drvi after := by
  intro nmi natTable present
  obtain ⟨between, presentBetween, later⟩ := second nmi natTable present
  obtain ⟨before, presentBefore, earlier⟩ := first nmi between presentBetween
  exact ⟨before, presentBefore, later.size.trans earlier.size, later.nmi.trans earlier.nmi,
    fun i live => earlier.live i (later.live i live)⟩

variable {natTable changed : IpaNatIp4TableCache}

theorem RuleCall.noneNew {drvi after : Drvi} {nmi : NatMemIn}
    (call : RuleCall drvi nmi changed after) (present : drvi.natTable? nmi = some natTable)
    (old : LiveBefore natTable changed) : NoneNew drvi after := by
  intro other otherTable otherPresent
  by_cases same : other = nmi
  · subst same
    rw [call.natTable?] at otherPresent
    cases otherPresent
    exact ⟨natTable, present, old⟩
  · rw [call.natTable?_other same] at otherPresent
    exact ⟨otherTable, otherPresent, LiveBefore.refl otherTable⟩

theorem Refused.liveBefore (refused : Refused natTable changed) : LiveBefore natTable changed := by
  refine ⟨refused.table.size_eq, refused.table.nmi_eq, fun i live => ?_⟩
  have used : natTable.table.links.used i = true := by
    rw [← refused.table.used_eq i]
    exact live.1
  exact ⟨used, refused.table.records_eq used ▸ live.2⟩

/-- An addition that fails puts no rule into a table. -/
theorem addIpv4Rule_noneNew (kernel : Kernel) {drvi : Drvi} (chained : drvi.Chained)
    (tblHdl : TblHdl) (clntRule : IpaNatIpv4Rule) {errno : Errno}
    (failed : (drvi.addIpv4Rule kernel tblHdl clntRule).1 = .error errno) :
    NoneNew drvi (drvi.addIpv4Rule kernel tblHdl clntRule).2 := by
  cases tblHdl with
  | none => exact (SameTables.refl drvi).noneNew
  | some nmi =>
    cases present : drvi.natTable? nmi with
    | none =>
      simp only [Drvi.addIpv4Rule, present]
      exact (SameTables.refl drvi).noneNew
    | some natTable =>
      obtain ⟨changed, call, ⟨_, slot, indexSlot, added, _⟩ | ⟨_, _, refused⟩⟩ :=
        Drvi.addIpv4Rule_cases kernel present (chained nmi natTable present) clntRule
      · rw [added] at failed
        cases failed
      · exact call.noneNew present refused.liveBefore

theorem Deleted.liveBefore {slot : Nat} (deleted : Deleted natTable slot changed)
    (chained : Chained natTable) (used : natTable.table.links.used slot = true)
    : LiveBefore natTable changed := by
  obtain ⟨rank, head, sound⟩ := chained.tableSound
  have redirected := sound_redirectSecond sound (natTable.table.records slot).indxTblEntry
  have stillUsed : (redirectSecond natTable
      (natTable.table.records slot).indxTblEntry).links.used slot = true := by
    rw [links_redirectSecond]
    exact used
  refine ⟨?_, ?_, fun i live => ?_⟩
  · rw [deleted.table.size_eq, size_redirectSecond]
  · rw [deleted.table.nmi_eq, nmi_redirectSecond]
  · have before := ((deleted.table.live_iff redirected stillUsed i).mp live).1
    exact (live_redirectSecond natTable _ i).mp before

theorem delIpv4Rule_noneNew (kernel : Kernel) {drvi : Drvi} (chained : drvi.Chained)
    (tblHdl : TblHdl) (ruleHdl : Nat)
    (succeeded : (drvi.delIpv4Rule kernel tblHdl ruleHdl).1 = .ok ()) :
    NoneNew drvi (drvi.delIpv4Rule kernel tblHdl ruleHdl).2 := by
  cases tblHdl with
  | none => cases succeeded
  | some nmi =>
    cases present : drvi.natTable? nmi with
    | none =>
      simp only [Drvi.delIpv4Rule, present] at succeeded
      cases succeeded
    | some natTable =>
      have own := chained nmi natTable present
      obtain ⟨changed, call, ⟨deletable, _, _, deleted⟩ | ⟨⟨errno, failed⟩, _⟩⟩ :=
        Drvi.delIpv4Rule_cases kernel present own ruleHdl
      · exact call.noneNew present (deleted.liveBefore own deletable.used)
      · rw [failed] at succeeded
        cases succeeded

/-! ## A copy that fails -/

/-- The object when the walk of a copy has passed the first `i` records. -/
def copiedUpTo (kernel : Kernel) (start : Nati) (src : NatMemIn)
    (source destination : IpaNatIp4TableCache) (i : Nat) : WalkResult × Nati :=
  ipaTableWalkLoop source.table .slotFilled (migrateRule kernel src (some src.other)) i 0
    (clearedFor start src destination)

/-- The copy of a switch gets as far as the live record `i`, whose rule the maps know, and
`ipa_NATI_add_ipv4_rule` fails for it. -/
structure CopyFails (kernel : Kernel) (start : Nati) (src : NatMemIn)
    (source destination : IpaNatIp4TableCache) (i origRuleHdl : Nat) : Prop where
  handles : start.memTblHdl src = some src ∧ start.memTblHdl src.other = some src.other
  sourceTable : start.drvi.natTable? src = some source
  destinationTable : start.drvi.natTable? src.other = some destination
  sourceCnt : (start.drvi.ipv4NatCache src).tableCnt ≠ 0
  destinationCnt : (start.drvi.ipv4NatCache src.other).tableCnt ≠ 0
  passed : (copiedUpTo kernel start src source destination i).1 = .zero
  live : Live source.table i
  known : (start.mapPairs src).new2orig (makeEntryHdl source.table i) = some origRuleHdl
  refused : ((copiedUpTo kernel start src source destination i).2.drvi.addIpv4Rule kernel
    (some src.other) (source.table.records i).v4Rule).1.isOk = false

section CopyFails

variable {kernel : Kernel} {start nati next : Nati} {src : NatMemIn}
  {source destination : IpaNatIp4TableCache} {i origRuleHdl : Nat}

/-- `mapRule` leaves the other memory type alone and enters one original handle at most. -/
theorem mapRule_maps (nati : Nati) (sub : NatMemIn) (origRuleHdl newRuleHdl : Nat) :
    ((nati.mapRule sub origRuleHdl newRuleHdl).2.mapPairs sub.other = nati.mapPairs sub.other) ∧
      ∀ orig, ((nati.mapRule sub origRuleHdl newRuleHdl).2.mapPairs sub).orig2new orig
          = (nati.mapPairs sub).orig2new orig ∨
        (orig = origRuleHdl ∧
          ((nati.mapRule sub origRuleHdl newRuleHdl).2.mapPairs sub).orig2new orig
            = some newRuleHdl) := by
  have different := other_ne sub
  have entered : ∀ orig, update (nati.mapPairs sub).orig2new origRuleHdl
      (some newRuleHdl) orig = (nati.mapPairs sub).orig2new orig ∨
        (orig = origRuleHdl ∧ update (nati.mapPairs sub).orig2new origRuleHdl
          (some newRuleHdl) orig = some newRuleHdl) := by
    intro orig
    by_cases same : orig = origRuleHdl
    · subst same
      exact .inr ⟨rfl, update_self ..⟩
    · exact .inl (update_of_ne same ..)
  rcases mapRule_cases nati sub origRuleHdl newRuleHdl with
    ⟨_, refused⟩ | ⟨_, _, refused⟩ | ⟨_, _, mapped⟩
  · rw [refused]
    exact ⟨rfl, fun orig => .inl rfl⟩
  · rw [refused]
    simp only [setMaps, update_self, update_of_ne different, true_and]
    exact entered
  · rw [mapped]
    simp only [setMaps, update_self, update_of_ne different, true_and]
    exact entered

/-- `migrate_rule` enters at most the original handle of its record into the maps of the
destination. -/
theorem migrateRule_maps (kernel : Kernel) (nati : Nati) (src : NatMemIn) (hdl : Nat)
    (natRule : IpaNatRule) (i : Nat) :
    let outcome := migrateRule kernel src (some src.other) nati hdl natRule i
    outcome.2.mapPairs src = nati.mapPairs src ∧
      ∀ orig, (outcome.2.mapPairs src.other).orig2new orig ≠ none →
        (nati.mapPairs src.other).orig2new orig ≠ none ∨
          (nati.mapPairs src).new2orig hdl = some orig := by
  have unchanged : ∀ after : Nati, after.mapPairs = nati.mapPairs →
      after.mapPairs src = nati.mapPairs src ∧
        ∀ orig, (after.mapPairs src.other).orig2new orig ≠ none →
          (nati.mapPairs src.other).orig2new orig ≠ none ∨
            (nati.mapPairs src).new2orig hdl = some orig := by
    intro after same
    rw [same]
    exact ⟨rfl, fun orig known => .inl known⟩
  unfold migrateRule ipaNatMapFind
  split
  · exact unchanged nati rfl
  · cases found : (nati.mapPairs src).new2orig hdl with
    | none =>
      rw [found] at unchanged
      exact unchanged nati rfl
    | some origRuleHdl =>
      rw [found] at unchanged
      simp only
      split
      · exact unchanged _ rfl
      · rename_i newRuleHdl _
        generalize counting : ({ nati with drvi := (nati.drvi.addIpv4Rule kernel
          (some src.other) natRule.v4Rule).2 }.setCounter src.other
            (nati.totRulesInTable src.other + 1)) = counted
        have sameMaps : counted.mapPairs = nati.mapPairs := by rw [← counting]; rfl
        obtain ⟨others, entered⟩ := mapRule_maps counted src.other origRuleHdl newRuleHdl
        rw [other_other, sameMaps] at others
        rw [sameMaps] at entered
        have mapped : (counted.mapRule src.other origRuleHdl newRuleHdl).2.mapPairs src
              = nati.mapPairs src ∧
            ∀ orig, ((counted.mapRule src.other origRuleHdl newRuleHdl).2.mapPairs
                src.other).orig2new orig ≠ none →
              (nati.mapPairs src.other).orig2new orig ≠ none ∨ some origRuleHdl = some orig := by
          refine ⟨others, fun orig known => ?_⟩
          rcases entered orig with same | ⟨isNew, _⟩
          · exact .inl (same ▸ known)
          · exact .inr (congrArg some isNew.symm)
        split
        · exact mapped
        · exact mapped

/-- The maps of the source are the ones the copy has started with, and those of the
destination know only the rules of the first `k` records. -/
def KnownBelow (start : Nati) (src : NatMemIn) (source : IpaTable IpaNatRule) (k : Nat)
    (reached : Nati) : Prop :=
  reached.mapPairs src = start.mapPairs src ∧
    ∀ orig, (reached.mapPairs src.other).orig2new orig ≠ none →
      ∃ j < k, (start.mapPairs src).new2orig (makeEntryHdl source j) = some orig

theorem KnownBelow.called {table : IpaTable IpaNatRule} {k : Nat}
    (below : KnownBelow start src table k nati)
    (outcome : migrateRule kernel src (some src.other) nati (makeEntryHdl table k)
      (table.records k) k = (.zero, next)) : KnownBelow start src table (k + 1) next := by
  obtain ⟨sources, known⟩ := below
  have maps := migrateRule_maps kernel nati src (makeEntryHdl table k) (table.records k) k
  rw [outcome] at maps
  refine ⟨maps.1.trans sources, fun orig knownAfter => ?_⟩
  rcases maps.2 orig knownAfter with old | new
  · obtain ⟨j, low, found⟩ := known orig old
    exact ⟨j, Nat.lt_succ_of_lt low, found⟩
  · exact ⟨k, Nat.lt_succ_self k, sources ▸ new⟩

theorem KnownBelow.passed {table : IpaTable IpaNatRule} {k : Nat}
    (below : KnownBelow start src table k nati) : KnownBelow start src table (k + 1) nati := by
  refine ⟨below.1, fun orig known => ?_⟩
  obtain ⟨j, low, found⟩ := below.2 orig known
  exact ⟨j, Nat.lt_succ_of_lt low, found⟩

theorem copiedUpTo_knownBelow (kernel : Kernel) {start : Nati} {src : NatMemIn}
    (source destination : IpaNatIp4TableCache) (i : Nat)
    (empty : start.mapPairs src.other = NatiMapPair.cleared)
    (passed : (copiedUpTo kernel start src source destination i).1 = .zero) :
    KnownBelow start src source.table i (copiedUpTo kernel start src source destination i).2 := by
  have initial : KnownBelow start src source.table 0 (clearedFor start src destination) := by
    refine ⟨rfl, fun orig known => ?_⟩
    have sameMaps : (clearedFor start src destination).mapPairs src.other
        = NatiMapPair.cleared := empty
    rw [sameMaps] at known
    exact absurd rfl known
  rcases walkLoop_cases (KnownBelow start src source.table)
      (fun _ _ _ below _ outcome => below.called outcome) (fun _ _ below _ => below.passed)
      i 0 (clearedFor start src destination) initial with
    ⟨_, holds⟩ | ⟨_, _, _, _, _, stopped, _⟩
  · rw [Nat.zero_add] at holds
    exact holds
  · exact absurd passed stopped

/-- `migrate_rule` stops at a live record whose rule cannot be added. -/
theorem migrateRule_refused {hdl : Nat} {natRule : IpaNatRule} (alive : ¬ IsDead natRule)
    (known : (nati.mapPairs src).new2orig hdl = some origRuleHdl)
    (refused : (nati.drvi.addIpv4Rule kernel (some src.other) natRule.v4Rule).1.isOk = false)
    (i : Nat) :
    ∃ errno after, migrateRule kernel src (some src.other) nati hdl natRule i
      = (.negative errno, { nati with drvi := after }) := by
  have valid : ¬ natRule.protocol = ipahalNatInvalidProtocol := alive
  unfold migrateRule ipaNatMapFind
  rw [if_neg valid, known]
  simp only
  split
  · exact ⟨_, _, rfl⟩
  · rename_i added
    rw [added] at refused
    cases refused

/-- The rule at which a copy has stopped is not in the maps of the destination. -/
theorem CopyFails.unmapped (fails : CopyFails kernel start src source destination i origRuleHdl)
    (sound : NatiSound start) (empty : start.mapPairs src.other = NatiMapPair.cleared) :
    ((ipaNatiCopyIpv4Tbl kernel start (start.memTblHdl src)
      (start.memTblHdl src.other)).2.mapPairs src.other).orig2new origRuleHdl = none := by
  obtain ⟨rank, head, tableSound⟩ := (sound.tables src source fails.sourceTable).tableSound
  have inTable := (tableSound.linked.inside i fails.live.1).2
  obtain ⟨sources, knownBelow⟩ :=
    copiedUpTo_knownBelow kernel source destination i empty fails.passed
  have refused := fails.refused
  have passed := fails.passed
  generalize walked : copiedUpTo kernel start src source destination i = outcome
    at sources knownBelow refused passed
  obtain ⟨result, reached⟩ := outcome
  cases passed
  obtain ⟨errno, after, stopped⟩ :=
    migrateRule_refused fails.live.2 (sources ▸ fails.known) refused i
  have calls : callBackAt .slotFilled (source.table.records (0 + i)) = true := by
    rw [Nat.zero_add]
    exact fails.live.1
  obtain ⟨more, count⟩ := Nat.exists_eq_add_of_lt inTable
  rw [← Nat.zero_add i] at stopped
  have stops : (WalkResult.negative errno) ≠ .zero := nofun
  have copied := walkLoop_stop walked calls stopped stops more
  rw [fails.handles.1, fails.handles.2, copyIpv4Tbl_eq fails.sourceTable fails.destinationTable
    fails.sourceCnt fails.destinationCnt, copyWalk, count, Nat.add_assoc, copied]
  by_contra entered
  obtain ⟨k, low, sameOrig⟩ := knownBelow origRuleHdl entered
  have forward := sound.maps src _ _ fails.known
  rw [sound.maps src _ _ sameOrig, Option.some.injEq] at forward
  have same := makeEntryHdl_injective source.table (Nat.lt_trans low inTable) inTable forward
  exact Nat.ne_of_lt low same

end CopyFails

/-! ## Calls that switch -/

/-- A call that adds or deletes a rule. -/
inductive RuleRequest
  | add (tblHdl : TblHdl) (clntRule : IpaNatIpv4Rule)
  | del (tblHdl : TblHdl) (origRuleHdl : Nat)

namespace RuleRequest

/-- The trigger of a call. -/
def trigger : RuleRequest → NatiTrigger
  | .add tblHdl clntRule => .addRule tblHdl clntRule
  | .del tblHdl origRuleHdl => .delRule tblHdl origRuleHdl

/-- The handle of the rule that a call deletes. -/
def deleted : RuleRequest → Option Nat
  | .add _ _ => none
  | .del _ origRuleHdl => some origRuleHdl

/-- The handle that a call hands out, once it has returned. -/
def handedOut (after : Nati) : RuleRequest → Option Nat
  | .add _ _ => some after.out.ruleHdl
  | .del _ _ => none

/-- The object for which a call asks for a switch: `_smAddRuleHybrid` after an
addition to SRAM that has failed, `_smDelRuleHybrid` after a deletion from DDR. -/
def switching (kernel : Kernel) (nati : Nati) : RuleRequest → Option Nati
  | .add tblHdl clntRule =>
    let voted := nati.voteClock kernel
    let added := smAddRuleToTbl kernel (voted.2.hybridTblHdl tblHdl) clntRule voted.2
    if voted.1.isOk ∧ added.1.isOk = false ∧ added.2.currState = .hybrid ∧
        added.2.holdState = false then some added.2
    else none
  | .del tblHdl origRuleHdl =>
    match (nati.mapPairs nati.chooseMemSub).orig2new origRuleHdl with
    | none => none
    | some newRuleHdl =>
      let deleted := smDelRuleFromTbl kernel (nati.hybridTblHdl tblHdl) newRuleHdl
        (nati.unmapRule nati.chooseMemSub origRuleHdl newRuleHdl)
      if deleted.1.isOk ∧ deleted.2.backToSram then some deleted.2 else none

end RuleRequest

/-- A call asks for a switch, and its copy fails at the rule that the application
holds as `origRuleHdl`. -/
def CopyFailure (kernel : Kernel) (nati : Nati) (request : RuleRequest)
    (origRuleHdl : Nat) : Prop :=
  ∃ switching source destination i, request.switching kernel nati = some switching ∧
    (switching.voteClock kernel).1 = .ok () ∧
    CopyFails kernel (switchStart kernel switching switching.chooseMemSub)
      switching.chooseMemSub source destination i origRuleHdl

/-- The live record to which `ipa_nati_query_timestamp` and `ipa_nati_del_ipv4_rule`
get for an original handle. -/
def Finds (nati : Nati) (origRuleHdl newRuleHdl : Nat) (natRule : IpaNatRule) : Prop :=
  ∃ natTable, nati.drvi.natTable? nati.chooseMemSub = some natTable ∧
    (nati.mapPairs nati.chooseMemSub).orig2new origRuleHdl = some newRuleHdl ∧
    Live natTable.table (breakRuleHdl natTable.table newRuleHdl) ∧
    natTable.table.records (breakRuleHdl natTable.table newRuleHdl) = natRule

/-- Every rule but the one that the call deletes is still found, with all fields
but `redirect`, and is not the rule that the call has added. -/
def LosesNoRule (request : RuleRequest) (nati after : Nati) : Prop :=
  ∀ origRuleHdl newRuleHdl natRule, Finds nati origRuleHdl newRuleHdl natRule →
    request.deleted ≠ some origRuleHdl →
    ∃ laterHdl later, Finds after origRuleHdl laterHdl later ∧
      SameRule { natRule with redirect := later.redirect } later ∧
      request.handedOut after ≠ some laterHdl

section Switching

variable {kernel : Kernel} {nati switching : Nati} {request : RuleRequest} {origRuleHdl : Nat}

/-- What a call has done when it asks for a switch: no rule is new, and no original
handle has gone but that of the rule it deletes. -/
structure Asks (request : RuleRequest) (nati switching : Nati) : Prop where
  sound : NatiSound switching
  state : switching.currState = nati.currState
  active : switching.currState = activeState switching.chooseMemSub
  noneNew : NoneNew nati.drvi switching.drvi
  maps : ∀ sub orig hdl, (switching.mapPairs sub).orig2new orig = some hdl →
    (nati.mapPairs sub).orig2new orig = some hdl
  deleted : ∀ sub orig, sub = nati.chooseMemSub → request.deleted = some orig →
    (switching.mapPairs sub).orig2new orig = none

theorem Nati.chooseMemSub_eq {nati other : Nati} (same : nati.currState = other.currState) :
    nati.chooseMemSub = other.chooseMemSub := by
  unfold chooseMemSub
  rw [same]

theorem active_of_hybrid {nati : Nati} (state : nati.currState = .hybrid) :
    nati.currState = activeState nati.chooseMemSub := by
  unfold chooseMemSub
  rw [if_pos state]
  exact state

theorem active_of_hybridDdr {nati : Nati} (state : nati.currState = .hybridDdr) :
    nati.currState = activeState nati.chooseMemSub := by
  have elsewhere : nati.currState ≠ .hybrid := by
    rw [state]
    decide
  unfold chooseMemSub
  rw [if_neg elsewhere]
  exact state

section RuleOfTable

variable (kernel : Kernel) (tblHdl : TblHdl) (clntRule : IpaNatIpv4Rule) (ruleHdl : Nat)
  (nati : Nati)

theorem smAddRuleToTbl_drvi : (smAddRuleToTbl kernel tblHdl clntRule nati).2.drvi
    = (nati.drvi.addIpv4Rule kernel tblHdl clntRule.fresh).2 := by
  unfold smAddRuleToTbl
  simp only
  split <;> rfl

theorem smAddRuleToTbl_mapPairs :
    (smAddRuleToTbl kernel tblHdl clntRule nati).2.mapPairs = nati.mapPairs := by
  unfold smAddRuleToTbl
  simp only
  split <;> rfl

theorem smAddRuleToTbl_currState :
    (smAddRuleToTbl kernel tblHdl clntRule nati).2.currState = nati.currState := by
  unfold smAddRuleToTbl
  simp only
  split <;> rfl

theorem smAddRuleToTbl_error {errno : Errno}
    (failed : (smAddRuleToTbl kernel tblHdl clntRule nati).1 = .error errno) :
    (nati.drvi.addIpv4Rule kernel tblHdl clntRule.fresh).1 = .error errno := by
  unfold smAddRuleToTbl at failed
  simp only at failed
  split at failed
  · rename_i refused
    cases failed
    exact refused
  · cases failed

theorem smDelRuleFromTbl_drvi : (smDelRuleFromTbl kernel tblHdl ruleHdl nati).2.drvi
    = (nati.drvi.delIpv4Rule kernel tblHdl ruleHdl).2 := by
  unfold smDelRuleFromTbl
  simp only
  split <;> rfl

theorem smDelRuleFromTbl_mapPairs :
    (smDelRuleFromTbl kernel tblHdl ruleHdl nati).2.mapPairs = nati.mapPairs := by
  unfold smDelRuleFromTbl
  simp only
  split <;> rfl

theorem smDelRuleFromTbl_currState :
    (smDelRuleFromTbl kernel tblHdl ruleHdl nati).2.currState = nati.currState := by
  unfold smDelRuleFromTbl
  simp only
  split <;> rfl

theorem smDelRuleFromTbl_ok (succeeded : (smDelRuleFromTbl kernel tblHdl ruleHdl nati).1 = .ok ()) :
    (nati.drvi.delIpv4Rule kernel tblHdl ruleHdl).1 = .ok () := by
  unfold smDelRuleFromTbl at succeeded
  simp only at succeeded
  split at succeeded
  · cases succeeded
  · assumption

end RuleOfTable

theorem isOk_unit {result : Except Errno Unit} (ok : result.isOk = true) : result = .ok () := by
  cases result with
  | error errno => cases ok
  | ok _ => rfl

theorem error_of_isOk {α : Type} {result : Except Errno α} (failed : result.isOk = false) :
    ∃ errno, result = .error errno := by
  cases result with
  | error errno => exact ⟨errno, rfl⟩
  | ok _ => cases failed

variable {tblHdl : TblHdl}

theorem asks_of_add {clntRule : IpaNatIpv4Rule} (sound : NatiSound nati)
    (asked : (RuleRequest.add tblHdl clntRule).switching kernel nati = some switching) :
    Asks (.add tblHdl clntRule) nati switching := by
  have voted := voteClock_untouched kernel nati
  have votedSound := sound.voteClock kernel
  simp only [RuleRequest.switching] at asked
  split at asked
  · rename_i condition
    obtain ⟨_, failed, hybrid, _⟩ := condition
    cases asked
    obtain ⟨errno, refused⟩ := error_of_isOk failed
    refine ⟨smAddRuleToTbl_sound kernel _ clntRule _ votedSound, ?_, ?_, ?_, ?_, ?_⟩
    · rw [smAddRuleToTbl_currState, voteClock_currState]
    · exact active_of_hybrid hybrid
    · rw [smAddRuleToTbl_drvi]
      exact voted.tables.noneNew.trans (addIpv4Rule_noneNew kernel votedSound.tables _ _
        (smAddRuleToTbl_error kernel _ _ _ refused))
    · intro sub orig hdl known
      rw [smAddRuleToTbl_mapPairs] at known
      exact known
    · intro sub orig _ deleted
      cases deleted
  · cases asked

theorem asks_of_del {deletedHdl : Nat} (sound : NatiSound nati)
    (asked : (RuleRequest.del tblHdl deletedHdl).switching kernel nati = some switching) :
    Asks (.del tblHdl deletedHdl) nati switching := by
  simp only [RuleRequest.switching] at asked
  split at asked
  · cases asked
  · rename_i newRuleHdl known
    split at asked
    · rename_i condition
      obtain ⟨succeeded, back⟩ := condition
      cases asked
      have unmapped := sound.unmapRule known
      have state : ∀ sub orig hdl, (nati.unmapRule sub orig hdl).currState = nati.currState :=
        fun _ _ _ => rfl
      simp only [backToSram, Bool.and_eq_true, decide_eq_true_eq] at back
      refine ⟨smDelRuleFromTbl_sound kernel _ newRuleHdl _ unmapped, ?_, ?_, ?_, ?_, ?_⟩
      · rw [smDelRuleFromTbl_currState, state]
      · exact active_of_hybridDdr back.1.1
      · rw [smDelRuleFromTbl_drvi]
        exact delIpv4Rule_noneNew kernel unmapped.tables _ _
          (smDelRuleFromTbl_ok kernel _ _ _ (isOk_unit succeeded))
      · intro sub orig hdl later
        rw [smDelRuleFromTbl_mapPairs] at later
        by_cases same : sub = nati.chooseMemSub
        · subst same
          simp only [unmapRule, setMaps, update_self, ipaNatMapDel_snd] at later
          exact (of_update_none later).2
        · simp only [unmapRule, setMaps, update_of_ne same] at later
          exact later
      · rintro sub orig rfl deleted
        cases deleted
        rw [smDelRuleFromTbl_mapPairs]
        simp [unmapRule, setMaps, ipaNatMapDel_snd]
    · cases asked

theorem asks_of_switching (sound : NatiSound nati)
    (asked : request.switching kernel nati = some switching) : Asks request nati switching := by
  cases request with
  | add tblHdl clntRule => exact asks_of_add sound asked
  | del tblHdl deletedHdl => exact asks_of_del sound asked

/-- The rule at which the copy stops was found before the call. -/
theorem Asks.finds (asks : Asks request nati switching) {src : NatMemIn}
    (isActive : src = switching.chooseMemSub) {source destination : IpaNatIp4TableCache} {i : Nat}
    (fails : CopyFails kernel (switchStart kernel switching src) src source destination i
      origRuleHdl) :
    ∃ hdl natRule, Finds nati origRuleHdl hdl natRule ∧ request.deleted ≠ some origRuleHdl := by
  obtain ⟨sameMaps, _, _, _, sameTables⟩ := switchStart_maps kernel switching src
  have chosen : src = nati.chooseMemSub :=
    isActive.trans (chooseMemSub_eq asks.state)
  have present := fails.sourceTable
  rw [sameTables.tables] at present
  obtain ⟨before, presentBefore, old⟩ := asks.noneNew src source present
  obtain ⟨rank, head, tableSound⟩ := (asks.sound.tables src source present).tableSound
  have inTable := (tableSound.linked.inside i fails.live.1).2
  have known := fails.known
  rw [sameMaps] at known
  have forward := asks.sound.maps src _ _ known
  have forwardBefore := asks.maps src _ _ forward
  have slot : breakRuleHdl before.table (makeEntryHdl source.table i) = i :=
    breakRuleHdl_makeEntryHdl source.table before.table old.size.symm inTable
  refine ⟨makeEntryHdl source.table i, before.table.records i, ⟨before, ?_, ?_, ?_, ?_⟩, ?_⟩
  · rw [← chosen]
    exact presentBefore
  · rw [← chosen]
    exact forwardBefore
  · rw [slot]
    exact old.live i fails.live
  · rw [slot]
  · intro deleted
    rw [asks.deleted src origRuleHdl chosen deleted] at forward
    cases forward

/-- An addition to DDR enters its own rule at most. -/
theorem smAddRuleHybrid_ddr (kernel : Kernel) (statemach : Statemach) (tblHdl : TblHdl)
    (clntRule : IpaNatIpv4Rule) {nati : Nati} (state : nati.currState = .hybridDdr) :
    let after := (smAddRuleHybrid kernel statemach tblHdl clntRule nati).2
    after.currState = .hybridDdr ∧ ∀ orig,
      (after.mapPairs .ddr).orig2new orig = (nati.mapPairs .ddr).orig2new orig ∨
        (after.mapPairs .ddr).orig2new orig = some after.out.ruleHdl := by
  have sameMaps := smAddRuleToTbl_mapPairs kernel (nati.hybridTblHdl tblHdl) clntRule nati
  have sameState := smAddRuleToTbl_currState kernel (nati.hybridTblHdl tblHdl) clntRule nati
  unfold smAddRuleHybrid
  simp only
  generalize smAddRuleToTbl kernel (nati.hybridTblHdl tblHdl) clntRule nati = added
    at sameMaps sameState
  rw [state] at sameState
  have elsewhere : added.2.currState ≠ .hybrid := by
    rw [sameState]
    decide
  split
  · have chosen : added.2.chooseMemSub = .ddr := if_neg elsewhere
    rw [chosen]
    obtain ⟨_, entered⟩ := mapRule_maps added.2 .ddr added.2.out.ruleHdl added.2.out.ruleHdl
    rw [sameMaps] at entered
    have untouched : (added.2.mapRule .ddr added.2.out.ruleHdl added.2.out.ruleHdl).2.currState
          = added.2.currState ∧
        (added.2.mapRule .ddr added.2.out.ruleHdl added.2.out.ruleHdl).2.out = added.2.out := by
      unfold mapRule
      simp only
      split <;> exact ⟨rfl, rfl⟩
    refine ⟨untouched.1.trans sameState, fun orig => ?_⟩
    rw [untouched.2]
    rcases entered orig with same | ⟨_, isNew⟩
    · exact .inl same
    · exact .inr isNew
  · rw [if_neg (fun condition => elsewhere condition.1)]
    exact ⟨sameState, fun orig => .inl (by rw [sameMaps])⟩

/-- What a call leaves of the maps that the switch has made. -/
def Leaves (request : RuleRequest) (ended after : Nati) (sub : NatMemIn) : Prop :=
  after.chooseMemSub = sub ∧ ∀ orig,
    (after.mapPairs sub).orig2new orig = (ended.mapPairs sub).orig2new orig ∨
      (after.mapPairs sub).orig2new orig = request.handedOut after

theorem leaves_of_add {clntRule : IpaNatIpv4Rule}
    (asks : Asks (.add tblHdl clntRule) nati switching)
    (asked : (RuleRequest.add tblHdl clntRule).switching kernel nati = some switching)
    (voted : (switching.voteClock kernel).1 = .ok ()) :
    Leaves (.add tblHdl clntRule) (switchEnd kernel switching switching.chooseMemSub)
      (ipaNatiStatemach kernel (.addRule tblHdl clntRule) nati).2
      switching.chooseMemSub.other := by
  have switched := tblSwitch_eq asks.active voted
  simp only [RuleRequest.switching] at asked
  split at asked
  · rename_i condition
    obtain ⟨outerVote, failed, hybrid, holding⟩ := condition
    cases asked
    generalize adding : smAddRuleToTbl kernel ((nati.voteClock kernel).2.hybridTblHdl tblHdl)
      clntRule (nati.voteClock kernel).2 = added at failed hybrid holding switched asks
    have state : nati.currState = .hybrid := asks.state.symm.trans hybrid
    have chosen : added.2.chooseMemSub = .sram := if_pos hybrid
    obtain ⟨errno, refused⟩ := error_of_isOk failed
    generalize switchEnd kernel added.2 added.2.chooseMemSub = ended at switched
    have again := smAddRuleHybrid_ddr kernel (statemachAt kernel 1) tblHdl clntRule
      (show (ended.setState .hybridDdr).currState = .hybridDdr from rfl)
    have nested : (statemachAt kernel 2 (.addRule tblHdl clntRule) (ended.setState .hybridDdr)).2
        = (smAddRuleHybrid kernel (statemachAt kernel 1) tblHdl clntRule
            (ended.setState .hybridDdr)).2 := rfl
    have runs : (ipaNatiStatemach kernel (.addRule tblHdl clntRule) nati).2
        = ((statemachAt kernel 2 (.addRule tblHdl clntRule)
            (ended.setState .hybridDdr)).2.voteClock kernel).2 := by
      have required : nati.voteRequired (.addRule tblHdl clntRule) = true := by
        simp [voteRequired, state]
      have outer := isOk_unit outerVote
      rw [ipaNatiStatemach, statemachAt, required, runCallback, if_pos rfl]
      simp only [outer, state, stateMachTbl, smAddRuleHybrid, adding, refused, switched]
      rw [if_pos ⟨hybrid, holding⟩]
    rw [runs, nested, chosen]
    exact ⟨if_neg (by rw [voteClock_currState, again.1]; decide), again.2⟩
  · cases asked

theorem leaves_of_del {deletedHdl : Nat} (asks : Asks (.del tblHdl deletedHdl) nati switching)
    (asked : (RuleRequest.del tblHdl deletedHdl).switching kernel nati = some switching)
    (voted : (switching.voteClock kernel).1 = .ok ()) :
    Leaves (.del tblHdl deletedHdl) (switchEnd kernel switching switching.chooseMemSub)
      (ipaNatiStatemach kernel (.delRule tblHdl deletedHdl) nati).2
      switching.chooseMemSub.other := by
  have switched := tblSwitch_eq asks.active voted
  simp only [RuleRequest.switching] at asked
  split at asked
  · cases asked
  · rename_i newRuleHdl known
    split at asked
    · rename_i condition
      obtain ⟨succeeded, back⟩ := condition
      cases asked
      generalize deleting : smDelRuleFromTbl kernel (nati.hybridTblHdl tblHdl) newRuleHdl
        (nati.unmapRule nati.chooseMemSub deletedHdl newRuleHdl) = deleted
        at succeeded back switched asks
      have later : deleted.2.currState = .hybridDdr := by
        simp only [backToSram, Bool.and_eq_true, decide_eq_true_eq] at back
        exact back.1.1
      have state : nati.currState = .hybridDdr := asks.state.symm.trans later
      have chosen : deleted.2.chooseMemSub = .ddr := by
        unfold chooseMemSub
        rw [later]
        rfl
      generalize switchEnd kernel deleted.2 deleted.2.chooseMemSub = ended at switched
      have runs : (ipaNatiStatemach kernel (.delRule tblHdl deletedHdl) nati).2
          = ended.setState .hybrid := by
        have required : nati.voteRequired (.delRule tblHdl deletedHdl) = false := by
          simp [voteRequired, state]
        rw [ipaNatiStatemach, statemachAt, required, runCallback, if_neg Bool.false_ne_true]
        simp only [state, stateMachTbl, smDelRuleHybrid, ipaNatMapDel, known, deleting,
          isOk_unit succeeded, back, if_true, switched]
      rw [runs, chosen]
      exact ⟨rfl, fun orig => .inl rfl⟩
    · cases asked

theorem leaves_of_switching (asks : Asks request nati switching)
    (asked : request.switching kernel nati = some switching)
    (voted : (switching.voteClock kernel).1 = .ok ()) :
    Leaves request (switchEnd kernel switching switching.chooseMemSub)
      (ipaNatiStatemach kernel request.trigger nati).2 switching.chooseMemSub.other := by
  cases request with
  | add tblHdl clntRule => exact leaves_of_add asks asked voted
  | del tblHdl deletedHdl => exact leaves_of_del asks asked voted

theorem switchStart_sound (sound : NatiSound nati) (src : NatMemIn) :
    NatiSound (switchStart kernel nati src) :=
  (statemachAt_sound kernel 1 (goToOther src) _ (sound.voteClock kernel)).forgetRules src.other

/-- A call whose switch fails at a rule loses that rule. -/
theorem not_losesNoRule_of_copyFailure {pdns : BitVec 8 → BitVec 32}
    (reached : Reaches (natiStep kernel) (init pdns) nati)
    (failure : CopyFailure kernel nati request origRuleHdl) :
    ¬ LosesNoRule request nati (ipaNatiStatemach kernel request.trigger nati).2 := by
  obtain ⟨switching, source, destination, i, asked, voted, fails⟩ := failure
  have asks := asks_of_switching (natiSound_of_reaches reached) asked
  obtain ⟨active, found⟩ := leaves_of_switching asks asked voted
  obtain ⟨_, empty, _⟩ := switchStart_maps kernel switching switching.chooseMemSub
  have unmapped := fails.unmapped (switchStart_sound asks.sound _) empty
  obtain ⟨hdl, natRule, findsBefore, notDeleted⟩ := asks.finds rfl fails
  intro losesNone
  obtain ⟨laterHdl, later, ⟨natTable, _, mapped, _⟩, _, notNew⟩ :=
    losesNone origRuleHdl hdl natRule findsBefore notDeleted
  rw [active] at mapped
  rcases found origRuleHdl with same | isNew
  · rw [mapped] at same
    exact Option.some_ne_none _ (same.trans unmapped)
  · rw [mapped] at isNew
    exact notNew isNew.symm

end Switching

/-- The object after calls of the application. -/
def natiAfter (kernel : Kernel) (calls : List NatiCall) : Nati :=
  calls.foldl (fun nati call => (call.run kernel nati).2) (init fun _ => 1)

theorem reaches_natiAfter (kernel : Kernel) (calls : List NatiCall) :
    Reaches (natiStep kernel) (init fun _ => 1) (natiAfter kernel calls) :=
  Reaches.foldl (Allowed.always _ _ calls)

/-- A kernel that refuses two calls. -/
def refusingKernel : Kernel where
  hwV4 := true
  sramMemAvailableForNat := 150
  callOk := fun call => call ≠ 16 && call ≠ 21

/-- A hybrid table with one rule, which is in SRAM. -/
def oneRule : Nati :=
  natiAfter refusingKernel
    [.statemach (.addTable 1 3 .hybrid), .statemach (.addRule (some .sram) (sampleRule 1))]

/-- The addition of a second rule, for which the kernel refuses the commands. -/
def secondRule : RuleRequest := .add (some .sram) (sampleRule 2)

/-- The table of a memory type. -/
def natTableOf (drvi : Drvi) (nmi : NatMemIn) : IpaNatIp4TableCache :=
  (drvi.natTable? nmi).getD (IpaNatIp4TableCache.create nmi smallSize)

theorem eq_some_getD {α : Type} {value : Option α} (present : value.isSome = true) (default : α) :
    value = some (value.getD default) := by
  cases value with
  | none => cases present
  | some _ => rfl

/-- The kernel also refuses the commands that copy the first rule. -/
theorem copyFailure_secondRule : CopyFailure refusingKernel oneRule secondRule 32770 := by
  refine ⟨(secondRule.switching refusingKernel oneRule).getD oneRule, ?_⟩
  generalize started : switchStart refusingKernel
    ((secondRule.switching refusingKernel oneRule).getD oneRule) .sram = start
  refine ⟨natTableOf start.drvi .sram, natTableOf start.drvi .ddr, 1,
    eq_some_getD (by decide +kernel) oneRule, isOk_unit (by decide +kernel), ?_⟩
  subst started
  exact
    { handles := by decide +kernel
      sourceTable := eq_some_getD (by decide +kernel) _
      destinationTable := eq_some_getD (by decide +kernel) _
      sourceCnt := by decide +kernel
      destinationCnt := by decide +kernel
      passed := by decide +kernel
      live := by decide +kernel
      known := by decide +kernel
      refused := by decide +kernel }

theorem not_losesNoRule_secondRule :
    ¬ LosesNoRule secondRule oneRule
      (ipaNatiStatemach refusingKernel secondRule.trigger oneRule).2 :=
  not_losesNoRule_of_copyFailure (reaches_natiAfter refusingKernel _) copyFailure_secondRule

/-- The first rule was found before the call, and its handle is unknown afterwards. -/
theorem not_forall_losesNoRule :
    ¬ ∀ (kernel : Kernel) (pdns : BitVec 8 → BitVec 32) (nati : Nati) (request : RuleRequest)
      (origRuleHdl : Nat), Reaches (natiStep kernel) (init pdns) nati →
        CopyFailure kernel nati request origRuleHdl →
        LosesNoRule request nati (ipaNatiStatemach kernel request.trigger nati).2 := by
  intro claim
  have losesNone := claim refusingKernel (fun _ => 1) oneRule secondRule 32770
    (reaches_natiAfter refusingKernel _) copyFailure_secondRule
  have findsFirst : Finds oneRule 32770 32770 ((natTableOf oneRule.drvi .sram).table.records 1) :=
    ⟨natTableOf oneRule.drvi .sram, eq_some_getD (by decide +kernel) _, by decide +kernel,
      by decide +kernel, congrArg _ (by decide +kernel)⟩
  obtain ⟨laterHdl, _, ⟨_, _, mapped, _⟩, _⟩ := losesNone 32770 32770 _ findsFirst nofun
  generalize calling : (ipaNatiStatemach refusingKernel secondRule.trigger oneRule).2 = after
    at mapped
  have unknown : (after.mapPairs after.chooseMemSub).orig2new 32770 = none := by
    rw [← calling]
    decide +kernel
  rw [unknown] at mapped
  cases mapped

end Sm8650.IpaNat
