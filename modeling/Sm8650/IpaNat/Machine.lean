import Sm8650.IpaNat.Migration
import Sm8650.IpaNat.StateMach

/-!
# What every trigger keeps

Whatever the kernel answers and whichever trigger is run, the tables stay
chained, and a handle that one map leads back to leads there through the other.
The rules on callbacks are stated once for the machine: what every callback
keeps when the triggers nested in it keep it, the machine keeps.
-/

namespace Sm8650.IpaNat

open Transition Function Drvi

/-! ## Static data with the same tables -/

/-- Calls to the kernel that leave tables and rules alone. -/
structure SameTables (drvi after : Drvi) : Prop where
  tables : ∀ nmi, after.natTable? nmi = drvi.natTable? nmi
  counts : ∀ nmi, (after.ipv4NatCache nmi).tableCnt = (drvi.ipv4NatCache nmi).tableCnt
  pdns : after.pdns = drvi.pdns
  hashToken : after.hashToken = drvi.hashToken

namespace SameTables

variable {drvi middle after : Drvi}

theorem refl (drvi : Drvi) : SameTables drvi drvi :=
  ⟨fun _ => rfl, fun _ => rfl, rfl, rfl⟩

theorem trans (first : SameTables drvi middle) (second : SameTables middle after) :
    SameTables drvi after where
  tables := fun nmi => (second.tables nmi).trans (first.tables nmi)
  counts := fun nmi => (second.counts nmi).trans (first.counts nmi)
  pdns := second.pdns.trans first.pdns
  hashToken := second.hashToken.trans first.hashToken

end SameTables

section SameTables

variable (kernel : Kernel) (drvi : Drvi)

theorem call_sameTables : SameTables drvi (drvi.call kernel).2 :=
  ⟨fun _ => rfl, fun _ => rfl, rfl, rfl⟩

theorem setDescriptor_sameTables (nmi : NatMemIn) (ipaDesc : Bool) :
    SameTables drvi (drvi.setCache nmi { drvi.ipv4NatCache nmi with ipaDesc := ipaDesc }) := by
  refine ⟨fun other => ?_, fun other => ?_, rfl, rfl⟩
  · by_cases same : other = nmi
    · subst same
      simp [Drvi.natTable?, Drvi.setCache]
    · simp [Drvi.natTable?, Drvi.setCache, same]
  · by_cases same : other = nmi
    · subst same
      simp [Drvi.setCache]
    · simp [Drvi.setCache, same]

theorem openDescriptor_sameTables (nmi : NatMemIn) :
    SameTables drvi (drvi.openDescriptor kernel nmi).2 := by
  unfold openDescriptor
  split
  · exact SameTables.refl drvi
  · exact (call_sameTables kernel drvi).trans (setDescriptor_sameTables _ nmi _)

theorem voteClock_sameTables : SameTables drvi (drvi.ipaNatiVoteClock kernel).2 := by
  have opened := openDescriptor_sameTables kernel drvi .sram
  unfold ipaNatiVoteClock
  simp only
  split
  · exact opened.trans (call_sameTables kernel _)
  · exact opened

theorem getSramSize_sameTables : SameTables drvi (drvi.ipaNatiGetSramSize kernel).2 := by
  have opened := openDescriptor_sameTables kernel drvi .sram
  unfold ipaNatiGetSramSize
  simp only
  split
  · exact opened.trans (call_sameTables kernel _)
  · exact opened

theorem postIpv4InitCmd_sameTables (tblHdl : TblHdl) :
    SameTables drvi (drvi.ipaNATIPostIpv4InitCmd kernel tblHdl).2 := by
  unfold ipaNATIPostIpv4InitCmd
  split
  · exact SameTables.refl drvi
  · exact call_sameTables kernel drvi

end SameTables

/-! ## Chained tables -/

/-- Every table that is there is chained. -/
def Drvi.Chained (drvi : Drvi) : Prop :=
  ∀ nmi natTable, drvi.natTable? nmi = some natTable → IpaNat.Chained natTable

namespace Drvi.Chained

variable {drvi after : Drvi} {nmi : NatMemIn}

section

variable (chained : drvi.Chained)

include chained

theorem of_sameTables (same : SameTables drvi after) : after.Chained := by
  intro nmi natTable present
  rw [same.tables] at present
  exact chained nmi natTable present

theorem setCache {cache : IpaNatCache}
    (own : ∀ natTable, cache.ip4Tbl = some natTable → IpaNat.Chained natTable) :
    (drvi.setCache nmi cache).Chained := by
  intro other natTable present
  by_cases same : other = nmi
  · subst same
    simp only [Drvi.natTable?, Drvi.setCache, update_self] at present
    exact own natTable present
  · simp only [Drvi.natTable?, Drvi.setCache, update_of_ne same] at present
    exact chained other natTable present

theorem setTable {natTable : IpaNatIp4TableCache}
    (own : IpaNat.Chained natTable) : (drvi.setTable nmi natTable).Chained := by
  refine chained.setCache ?_
  rintro other ⟨⟩
  exact own

theorem setCache_none {cache : IpaNatCache}
    (gone : cache.ip4Tbl = none) : (drvi.setCache nmi cache).Chained := by
  refine chained.setCache ?_
  intro natTable present
  rw [gone] at present
  cases present

theorem of_ruleCall {changed : IpaNatIp4TableCache}
    (call : RuleCall drvi nmi changed after) (own : IpaNat.Chained changed) : after.Chained := by
  intro other natTable present
  by_cases same : other = nmi
  · subst same
    rw [call.natTable?] at present
    cases present
    exact own
  · rw [call.natTable?_other same] at present
    exact chained other natTable present

end

variable (kernel : Kernel)

theorem addIpv4Tbl (chained : drvi.Chained) (nmi : NatMemIn) (publicIpAddr : BitVec 32)
    (numberOfEntries : Nat) :
    (drvi.ipaNATIAddIpv4Tbl kernel nmi publicIpAddr numberOfEntries).2.Chained := by
  have opened := chained.of_sameTables (openDescriptor_sameTables kernel drvi nmi)
  have allocated := opened.of_sameTables (call_sameTables kernel _)
  have posted := allocated.of_sameTables (call_sameTables kernel _)
  have destroyed := posted.of_sameTables (call_sameTables kernel _)
  unfold ipaNATIAddIpv4Tbl
  simp only
  split
  · exact chained
  · split
    · split
      · exact opened.setCache_none rfl
      · split
        · split
          · rename_i size _ _ _
            refine posted.setCache ?_
            rintro natTable ⟨⟩
            exact chained_create nmi size
          · exact destroyed.setCache_none rfl
        · exact allocated.setCache_none rfl
    · exact opened

theorem delIpv4Table (chained : drvi.Chained) (tblHdl : TblHdl) :
    (drvi.ipaNATIDelIpv4Table kernel tblHdl).2.Chained := by
  have freed := chained.of_sameTables (call_sameTables kernel drvi)
  unfold ipaNATIDelIpv4Table
  simp only
  split
  · exact chained
  · split
    · exact chained
    · split
      · exact freed.setCache_none rfl
      · exact freed.setCache_none rfl

theorem clearIpv4Tbl (chained : drvi.Chained) (tblHdl : TblHdl) :
    (drvi.ipaNATIClearIpv4Tbl tblHdl).2.Chained := by
  unfold ipaNATIClearIpv4Tbl
  split
  · exact chained
  · split
    · exact chained
    · rename_i nmi _ _ natTable present
      exact chained.setTable (chained_reset (chained nmi natTable present).sameSize)

theorem addIpv4Rule (chained : drvi.Chained) (tblHdl : TblHdl) (clntRule : IpaNatIpv4Rule) :
    (drvi.addIpv4Rule kernel tblHdl clntRule).2.Chained := by
  cases tblHdl with
  | none => exact chained
  | some nmi =>
    cases present : drvi.natTable? nmi with
    | none =>
      simp only [Drvi.addIpv4Rule, present]
      exact chained
    | some natTable =>
      have own := chained nmi natTable present
      obtain ⟨changed, call, ⟨addable, _, _, _, added⟩ | ⟨_, _, refused⟩⟩ :=
        addIpv4Rule_cases kernel present own clntRule
      · exact chained.of_ruleCall call (added.chained addable.accepted own)
      · exact chained.of_ruleCall call (refused.chained own)

end Drvi.Chained

/-- `ipa_NATI_del_ipv4_rule` on the table of a handle. -/
theorem Drvi.delIpv4Rule_cases (kernel : Kernel) {drvi : Drvi} {nmi : NatMemIn}
    {natTable : IpaNatIp4TableCache} (present : drvi.natTable? nmi = some natTable)
    (chained : IpaNat.Chained natTable) (ruleHdl : Nat) :
    let outcome := drvi.delIpv4Rule kernel (some nmi) ruleHdl
    let slot := breakRuleHdl natTable.table ruleHdl
    ∃ changed, RuleCall drvi nmi changed outcome.2 ∧
      ((Deletable natTable ruleHdl ∧ kernel.callOk drvi.calls = true ∧
          outcome.1 = .ok () ∧ Deleted natTable slot changed) ∨
        ((∃ errno, outcome.1 = .error errno) ∧
          ((Deletable natTable ruleHdl ∧ kernel.callOk drvi.calls = false ∧
              changed = { natTable with
                table := redirectSecond natTable (natTable.table.records slot).indxTblEntry }) ∨
            (¬ Deletable natTable ruleHdl ∧ changed = natTable)))) := by
  simp only [Drvi.delIpv4Rule, present]
  refine ⟨_, ⟨rfl, rfl⟩, ?_⟩
  rcases IpaNat.delIpv4Rule_cases (kernel.callOk drvi.calls) chained ruleHdl with
    ⟨deletable, posted, ret, deleted⟩ | ⟨deletable, posted, ret, changed⟩ |
    ⟨notDeletable, ret, changed⟩
  · exact .inl ⟨deletable, posted, ret, deleted⟩
  · exact .inr ⟨⟨_, ret⟩, .inl ⟨deletable, posted, changed⟩⟩
  · exact .inr ⟨ret, .inr ⟨notDeletable, changed⟩⟩

theorem Drvi.Chained.delIpv4Rule (kernel : Kernel) {drvi : Drvi} (chained : drvi.Chained)
    (tblHdl : TblHdl) (ruleHdl : Nat) : (drvi.delIpv4Rule kernel tblHdl ruleHdl).2.Chained := by
  cases tblHdl with
  | none => exact chained
  | some nmi =>
    cases present : drvi.natTable? nmi with
    | none =>
      simp only [Drvi.delIpv4Rule, present]
      exact chained
    | some natTable =>
      have own := chained nmi natTable present
      obtain ⟨changed, call, ⟨deletable, _, _, deleted⟩ |
        ⟨_, ⟨_, _, same⟩ | ⟨_, same⟩⟩⟩ := delIpv4Rule_cases kernel present own ruleHdl
      · exact chained.of_ruleCall call (deleted.chained own deletable.used deletable.indexUsed)
      · rw [same] at call
        exact chained.of_ruleCall call (chained_redirectSecond own _)
      · rw [same] at call
        exact chained.of_ruleCall call own

/-! ## Maps and tables -/

/-- A record's handle leads to an original handle only if that leads back. -/
def NatiMapPair.Sound (maps : NatiMapPair) : Prop :=
  ∀ newRuleHdl origRuleHdl, maps.new2orig newRuleHdl = some origRuleHdl →
    maps.orig2new origRuleHdl = some newRuleHdl

theorem ipaNatMapDel_snd (map : RuleMap) (key : Nat) :
    (ipaNatMapDel map key).2 = update map key none := by
  unfold ipaNatMapDel
  cases found : map key with
  | none => exact (update_eq_self_iff.mpr found.symm).symm
  | some val => rfl

/-- The invariant of every object, whatever has failed so far. -/
structure NatiSound (nati : Nati) : Prop where
  maps : ∀ sub, (nati.mapPairs sub).Sound
  tables : nati.drvi.Chained

namespace NatiSound

variable {nati after : Nati}

/-- Only maps and tables matter. -/
theorem of_same (sound : NatiSound nati) (sameMaps : after.mapPairs = nati.mapPairs)
    (tables : after.drvi.Chained) : NatiSound after := by
  refine ⟨fun sub => ?_, tables⟩
  rw [sameMaps]
  exact sound.maps sub

theorem setMaps (sound : NatiSound nati) (sub : NatMemIn) {maps : NatiMapPair}
    (own : maps.Sound) : NatiSound (nati.setMaps sub maps) := by
  refine ⟨fun other => ?_, sound.tables⟩
  by_cases same : other = sub
  · subst same
    simp only [Nati.setMaps, update_self]
    exact own
  · simp only [Nati.setMaps, update_of_ne same]
    exact sound.maps other

theorem forgetRules (sound : NatiSound nati) (sub : NatMemIn) :
    NatiSound (nati.forgetRules sub) := by
  have counted : NatiSound (nati.setCounter sub 0) := sound.of_same rfl sound.tables
  refine counted.setMaps sub ?_
  intro newRuleHdl origRuleHdl found
  cases found

theorem voteClock (kernel : Kernel) (sound : NatiSound nati) :
    NatiSound (nati.voteClock kernel).2 :=
  sound.of_same rfl (sound.tables.of_sameTables (voteClock_sameTables kernel nati.drvi))

/-- A rule that is entered, wholly or halfway. -/
theorem mapRule (sound : NatiSound nati) (sub : NatMemIn) (origRuleHdl newRuleHdl : Nat) :
    NatiSound (nati.mapRule sub origRuleHdl newRuleHdl).2 := by
  have own := sound.maps sub
  have notOrig : ∀ {hdl orig : Nat}, (nati.mapPairs sub).orig2new origRuleHdl = none →
      (nati.mapPairs sub).new2orig hdl = some orig → orig ≠ origRuleHdl := by
    rintro hdl orig newOrig found rfl
    rw [own hdl orig found] at newOrig
    cases newOrig
  rcases mapRule_cases nati sub origRuleHdl newRuleHdl with
    ⟨_, refused⟩ | ⟨newOrig, _, refused⟩ | ⟨newOrig, newRule, mapped⟩
  · rw [refused]
    exact sound
  · rw [refused]
    refine sound.setMaps sub fun hdl orig found => ?_
    simp only at found ⊢
    rw [update_of_ne (notOrig newOrig found)]
    exact own hdl orig found
  · rw [mapped]
    refine sound.setMaps sub fun hdl orig found => ?_
    simp only [NatiMapPair.enter] at found ⊢
    by_cases isNew : hdl = newRuleHdl
    · subst isNew
      rw [update_self] at found
      cases found
      rw [update_self]
    · rw [update_of_ne isNew] at found
      rw [update_of_ne (notOrig newOrig found)]
      exact own hdl orig found

theorem unmapRule (sound : NatiSound nati) {sub : NatMemIn} {origRuleHdl newRuleHdl : Nat}
    (known : (nati.mapPairs sub).orig2new origRuleHdl = some newRuleHdl) :
    NatiSound (nati.unmapRule sub origRuleHdl newRuleHdl) := by
  refine sound.setMaps sub fun hdl orig found => ?_
  simp only [ipaNatMapDel_snd] at found ⊢
  obtain ⟨different, found⟩ := of_update_none found
  have back := sound.maps sub hdl orig found
  have otherOrig : orig ≠ origRuleHdl := by
    rintro rfl
    rw [known] at back
    exact different (Option.some.inj back).symm
  rw [update_of_ne otherOrig]
  exact back

theorem migrateRule (kernel : Kernel) (nmi : NatMemIn) (dstTblHdl : TblHdl)
    (sound : NatiSound nati) (hdl : Nat) (natRule : IpaNatRule) (i : Nat) :
    NatiSound (migrateRule kernel nmi dstTblHdl nati hdl natRule i).2 := by
  have tables := sound.tables.addIpv4Rule kernel dstTblHdl natRule.v4Rule
  unfold IpaNat.migrateRule
  simp only
  split
  · exact sound
  · split
    · exact sound
    · split
      · exact sound.of_same rfl tables
      · rename_i origRuleHdl _ _ newRuleHdl _
        have counted : NatiSound ({ nati with drvi := (nati.drvi.addIpv4Rule kernel dstTblHdl
            natRule.v4Rule).2 }.setCounter nmi.other (nati.totRulesInTable nmi.other + 1)) :=
          sound.of_same rfl tables
        have mapped := counted.mapRule nmi.other origRuleHdl newRuleHdl
        split
        · exact mapped
        · exact mapped

end NatiSound

/-- What a callback of a walk keeps, the walk keeps. -/
theorem walkLoop_preserves {ρ υ σ : Type} [EntryInterface ρ υ] {inv : σ → Prop}
    {walkCb : WalkCallback ρ σ} (table : IpaTable ρ) (when2cb : When2Callback)
    (kept : ∀ arbData hdl entry i, inv arbData → inv (walkCb arbData hdl entry i).2)
    (remaining start : Nat) (arbData : σ) (initial : inv arbData) :
    inv (ipaTableWalkLoop table when2cb walkCb remaining start arbData).2 := by
  have called : ∀ i reached next, inv reached → callBackAt when2cb (table.records i) = true →
      walkCb reached (makeEntryHdl table i) (table.records i) i = (.zero, next) →
      inv next := by
    intro i reached next holds _ outcome
    have after := kept reached (makeEntryHdl table i) (table.records i) i holds
    rw [outcome] at after
    exact after
  rcases walkLoop_cases (fun _ reached => inv reached) called (fun _ _ holds _ => holds)
      remaining start arbData initial with
    ⟨_, holds⟩ | ⟨i, reached, _, holds, _, _, outcome⟩
  · exact holds
  · rw [← outcome]
    exact kept reached _ _ i holds

theorem NatiSound.copyIpv4Tbl (kernel : Kernel) {nati : Nati} (sound : NatiSound nati)
    (srcTblHdl dstTblHdl : TblHdl) :
    NatiSound (ipaNatiCopyIpv4Tbl kernel nati srcTblHdl dstTblHdl).2 := by
  have cleared : NatiSound { nati with drvi := (nati.drvi.ipaNATIClearIpv4Tbl dstTblHdl).2 } :=
    sound.of_same rfl (sound.tables.clearIpv4Tbl dstTblHdl)
  unfold ipaNatiCopyIpv4Tbl Nati.walkIpv4Tbl
  simp only
  split
  · exact cleared
  · split
    · exact cleared
    · split
      · exact cleared
      · unfold ipaTableWalk
        split
        · exact walkLoop_preserves _ _
            (fun reached hdl entry i holds => holds.migrateRule kernel _ dstTblHdl hdl entry i)
            _ _ _ cleared
        · exact cleared

/-! ## Callbacks -/

/-- A property of the object that a callback keeps. -/
def Keeps (inv : Nati → Prop) (smCb : Nati → NatiResult) : Prop :=
  ∀ nati, inv nati → inv (smCb nati).2

section Callbacks

variable (kernel : Kernel) {statemach : Statemach} (tblHdl : TblHdl)

theorem smDelTbl_sound : Keeps NatiSound (smDelTbl kernel tblHdl) := by
  intro nati sound
  have after : NatiSound { nati with
      drvi := (nati.drvi.ipaNATIDelIpv4Table kernel tblHdl).2 } :=
    sound.of_same rfl (sound.tables.delIpv4Table kernel tblHdl)
  unfold smDelTbl
  simp only
  split
  · exact after
  · split
    · exact after
    · exact after.of_same rfl after.tables

theorem smAddDdrTbl_sound (publicIpAddr : BitVec 32) (numberOfEntries : Nat) :
    Keeps NatiSound (smAddDdrTbl kernel publicIpAddr numberOfEntries) := by
  intro nati sound
  have tables := sound.tables.addIpv4Tbl kernel .ddr publicIpAddr numberOfEntries
  unfold smAddDdrTbl
  simp only
  split
  · exact sound.of_same rfl tables
  · exact sound.of_same rfl tables

theorem smAddSramTbl_sound (publicIpAddr : BitVec 32) :
    Keeps NatiSound (smAddSramTbl kernel publicIpAddr) := by
  intro nati sound
  have asked := sound.tables.of_sameTables (getSramSize_sameTables kernel nati.drvi)
  unfold smAddSramTbl
  simp only
  split
  · exact sound.of_same rfl asked
  · split
    · exact sound.of_same rfl asked
    · rename_i sramSize _ _
      generalize ready : ({ nati with
        drvi := (nati.drvi.ipaNatiGetSramSize kernel).2
        totSlotsInSram := ipaCalcNumSramTableEntries sramSize
        backToSramThresh := ipaCalcNumSramTableEntries sramSize / 4 } : Nati) = prepared
      have preparedSound : NatiSound prepared := by
        rw [← ready]
        exact sound.of_same rfl asked
      have voted := preparedSound.voteClock kernel
      split
      · exact voted
      · have added : NatiSound { (prepared.voteClock kernel).2 with
            drvi := ((prepared.voteClock kernel).2.drvi.ipaNATIAddIpv4Tbl kernel .sram
              publicIpAddr (ipaCalcNumSramTableEntries sramSize)).2 } :=
          voted.of_same rfl (voted.tables.addIpv4Tbl kernel .sram _ _)
        have devoted := added.voteClock kernel
        split
        · exact devoted.of_same rfl devoted.tables
        · exact devoted.of_same rfl devoted.tables

theorem smAddSramAndDdrTbl_sound (nested : ∀ trigger, Keeps NatiSound (statemach trigger))
    (publicIpAddr : BitVec 32) (numberOfEntries : Nat) :
    Keeps NatiSound (smAddSramAndDdrTbl kernel statemach publicIpAddr numberOfEntries) := by
  intro nati sound
  have sram := smAddSramTbl_sound kernel publicIpAddr _ ((sound.forgetRules .sram).forgetRules .ddr)
  have ddr := smAddDdrTbl_sound kernel publicIpAddr numberOfEntries _ sram
  unfold smAddSramAndDdrTbl
  simp only
  split
  · split
    · exact sram.of_same rfl sram.tables
    · split
      · exact nested _ _ (ddr.of_same rfl ddr.tables)
      · exact ddr.of_same rfl ddr.tables
  · split
    · exact ddr.of_same rfl ddr.tables
    · exact ddr

theorem smDelSramAndDdrTbl_sound : Keeps NatiSound (smDelSramAndDdrTbl kernel tblHdl) := by
  intro nati sound
  have sram := smDelTbl_sound kernel tblHdl _ ((sound.forgetRules .sram).forgetRules .ddr)
  have ddr := smDelTbl_sound kernel (smDelTbl kernel tblHdl
    ((nati.forgetRules .sram).forgetRules .ddr)).2.ddrTblHdl _ sram
  unfold smDelSramAndDdrTbl
  simp only
  split
  · exact sram
  · split
    · exact ddr
    · exact ddr.of_same rfl ddr.tables

theorem smClrTbl_sound : Keeps NatiSound (smClrTbl tblHdl) := by
  intro nati sound
  cases tblHdl with
  | none => exact sound
  | some nmi =>
    have forgotten := sound.forgetRules nmi
    exact forgotten.of_same rfl (forgotten.tables.clearIpv4Tbl (some nmi))

theorem smWalkTbl_eq (request : WalkRequest) (nati : Nati) :
    (smWalkTbl tblHdl request nati).2 = nati := by
  unfold smWalkTbl
  split
  · rfl
  · split
    · rfl
    · split <;> rfl

theorem smStatTbl_eq (nati : Nati) : (smStatTbl tblHdl nati).2 = nati := by
  unfold smStatTbl
  split
  · rfl
  · split
    · rfl
    · split <;> rfl

theorem smAddRuleToTbl_sound (clntRule : IpaNatIpv4Rule) :
    Keeps NatiSound (smAddRuleToTbl kernel tblHdl clntRule) := by
  intro nati sound
  have tables := sound.tables.addIpv4Rule kernel tblHdl clntRule.fresh
  unfold smAddRuleToTbl
  simp only
  split
  · exact sound.of_same rfl tables
  · exact sound.of_same rfl tables

theorem smDelRuleFromTbl_sound (ruleHdl : Nat) :
    Keeps NatiSound (smDelRuleFromTbl kernel tblHdl ruleHdl) := by
  intro nati sound
  have tables := sound.tables.delIpv4Rule kernel tblHdl ruleHdl
  unfold smDelRuleFromTbl
  simp only
  split
  · exact sound.of_same rfl tables
  · exact sound.of_same rfl tables

theorem NatiSound.setState {nati : Nati} (sound : NatiSound nati) (state : NatiState) :
    NatiSound (nati.setState state) :=
  sound.of_same rfl sound.tables

theorem smAddRuleHybrid_sound (nested : ∀ trigger, Keeps NatiSound (statemach trigger))
    (tblHdl : TblHdl) (clntRule : IpaNatIpv4Rule) :
    Keeps NatiSound (smAddRuleHybrid kernel statemach tblHdl clntRule) := by
  intro nati sound
  have added := smAddRuleToTbl_sound kernel (nati.hybridTblHdl tblHdl) clntRule nati sound
  have switched := nested .tblSwitch _ added
  unfold smAddRuleHybrid
  simp only
  split
  · exact added.mapRule _ _ _
  · split
    · split
      · exact switched
      · exact nested _ _ (switched.setState .hybridDdr)
    · exact added

theorem smDelRuleHybrid_sound (nested : ∀ trigger, Keeps NatiSound (statemach trigger))
    (tblHdl : TblHdl) (ruleHdl : Nat) :
    Keeps NatiSound (smDelRuleHybrid kernel statemach tblHdl ruleHdl) := by
  intro nati sound
  cases known : (nati.mapPairs nati.chooseMemSub).orig2new ruleHdl with
  | none =>
    simp only [smDelRuleHybrid, ipaNatMapDel, known]
    exact sound
  | some newRuleHdl =>
    have unmapped := sound.unmapRule known
    have deleted := smDelRuleFromTbl_sound kernel (nati.hybridTblHdl tblHdl) newRuleHdl _ unmapped
    have switched := nested .tblSwitch _ deleted
    simp only [smDelRuleHybrid, ipaNatMapDel, known]
    split
    · exact deleted
    · split
      · split
        · exact switched.setState .hybrid
        · exact switched
      · exact deleted

theorem smGoTo_sound (nmi : NatMemIn) (state : NatiState) :
    Keeps NatiSound (smGoTo kernel nmi state) := by
  intro nati sound
  have after : NatiSound { nati with
      drvi := (nati.drvi.ipaNATIPostIpv4InitCmd kernel (nati.memTblHdl nmi)).2 } :=
    sound.of_same rfl (sound.tables.of_sameTables (postIpv4InitCmd_sameTables kernel _ _))
  unfold smGoTo
  simp only
  split
  · exact after
  · exact after.setState state

theorem smSwitch_sound (nested : ∀ trigger, Keeps NatiSound (statemach trigger))
    (src : NatMemIn) (goTo : NatiTrigger) :
    Keeps NatiSound (smSwitch kernel statemach src goTo) := by
  intro nati sound
  have gone := nested goTo nati sound
  unfold smSwitch
  simp only
  split
  · exact gone
  · have copied := (gone.forgetRules src.other).copyIpv4Tbl kernel
      (((statemach goTo nati).2.forgetRules src.other).memTblHdl src)
      (((statemach goTo nati).2.forgetRules src.other).memTblHdl src.other)
    exact copied.of_same rfl copied.tables

theorem smGetTmStmp_sound (ruleHdl : Nat) : Keeps NatiSound (smGetTmStmp tblHdl ruleHdl) := by
  intro nati sound
  unfold smGetTmStmp
  split
  · exact sound
  · exact sound.of_same rfl sound.tables

/-- The machine keeps what its callbacks keep. -/
theorem statemachAt_keeps {inv : Nati → Prop}
    (voting : ∀ nati, inv nati → inv (nati.voteClock kernel).2)
    (callbacks : ∀ statemach : Statemach, (∀ trigger, Keeps inv (statemach trigger)) →
      ∀ state trigger, Keeps inv (stateMachTbl kernel statemach state trigger))
    (depth : Nat) (trigger : NatiTrigger) : Keeps inv (statemachAt kernel depth trigger) := by
  induction depth generalizing trigger with
  | zero => exact fun _ holds => holds
  | succ depth ih =>
    intro nati holds
    have callback := callbacks _ ih nati.currState trigger
    simp only [statemachAt, runCallback]
    split
    · split
      · exact voting nati holds
      · exact voting _ (callback _ (voting nati holds))
    · exact callback nati holds

theorem stateMachTbl_sound (nested : ∀ trigger, Keeps NatiSound (statemach trigger))
    (state : NatiState) (trigger : NatiTrigger) :
    Keeps NatiSound (stateMachTbl kernel statemach state trigger) := by
  have undefined : Keeps NatiSound smUndef := fun _ sound => sound
  have walk : ∀ tblHdl request, Keeps NatiSound (smWalkTbl tblHdl request) := by
    intro tblHdl request nati sound
    rw [smWalkTbl_eq]
    exact sound
  have stats : ∀ tblHdl, Keeps NatiSound (smStatTbl tblHdl) := by
    intro tblHdl nati sound
    rw [smStatTbl_eq]
    exact sound
  have stamp : ∀ tblHdl ruleHdl, Keeps NatiSound (smGetTmStmpHybrid tblHdl ruleHdl) := by
    intro tblHdl ruleHdl nati sound
    unfold smGetTmStmpHybrid
    split
    · exact sound
    · exact smGetTmStmp_sound _ _ nati sound
  cases trigger with
  | null | last => cases state <;> exact undefined
  | addTable publicIpAddr numberOfEntries memType =>
    cases state with
    | null => exact fun nati sound => nested _ _ (sound.setState _)
    | ddrOnly => exact smAddDdrTbl_sound kernel _ _
    | sramOnly => exact smAddSramTbl_sound kernel _
    | hybrid => exact smAddSramAndDdrTbl_sound kernel nested _ _
    | hybridDdr => exact undefined
  | delTable tblHdl =>
    cases state with
    | null => exact undefined
    | ddrOnly | sramOnly => exact smDelTbl_sound kernel tblHdl
    | hybrid | hybridDdr => exact smDelSramAndDdrTbl_sound kernel tblHdl
  | clrTable tblHdl =>
    cases state with
    | null => exact undefined
    | ddrOnly | sramOnly => exact smClrTbl_sound tblHdl
    | hybrid | hybridDdr => exact fun nati sound => smClrTbl_sound _ nati sound
  | wlkTable tblHdl request =>
    cases state with
    | null => exact undefined
    | ddrOnly | sramOnly => exact walk tblHdl request
    | hybrid | hybridDdr => exact fun nati sound => walk _ request nati sound
  | tblStats tblHdl =>
    cases state with
    | null => exact undefined
    | ddrOnly | sramOnly => exact stats tblHdl
    | hybrid | hybridDdr => exact fun nati sound => stats _ nati sound
  | addRule tblHdl clntRule =>
    cases state with
    | null => exact undefined
    | ddrOnly | sramOnly => exact smAddRuleToTbl_sound kernel tblHdl clntRule
    | hybrid | hybridDdr => exact smAddRuleHybrid_sound kernel nested tblHdl clntRule
  | delRule tblHdl ruleHdl =>
    cases state with
    | null => exact undefined
    | ddrOnly | sramOnly => exact smDelRuleFromTbl_sound kernel tblHdl ruleHdl
    | hybrid | hybridDdr => exact smDelRuleHybrid_sound kernel nested tblHdl ruleHdl
  | tblSwitch =>
    cases state with
    | hybrid => exact smSwitch_sound kernel nested .sram .gotoDdr
    | hybridDdr => exact smSwitch_sound kernel nested .ddr .gotoSram
    | null | ddrOnly | sramOnly => exact undefined
  | gotoDdr =>
    cases state with
    | hybrid | hybridDdr => exact smGoTo_sound kernel .ddr .hybridDdr
    | null | ddrOnly | sramOnly => exact undefined
  | gotoSram =>
    cases state with
    | hybrid | hybridDdr => exact smGoTo_sound kernel .sram .hybrid
    | null | ddrOnly | sramOnly => exact undefined
  | getTstamp tblHdl ruleHdl =>
    cases state with
    | null => exact undefined
    | ddrOnly | sramOnly => exact smGetTmStmp_sound tblHdl ruleHdl
    | hybrid | hybridDdr => exact stamp tblHdl ruleHdl

theorem statemachAt_sound (depth : Nat) (trigger : NatiTrigger) :
    Keeps NatiSound (statemachAt kernel depth trigger) :=
  statemachAt_keeps kernel (fun _ sound => sound.voteClock kernel)
    (fun _ nested state trigger => stateMachTbl_sound kernel nested state trigger) depth trigger

theorem ipaNatSwitchTo_sound (nmi : NatMemIn) (holdState : Bool) :
    Keeps NatiSound (ipaNatSwitchTo kernel nmi holdState) := by
  intro nati sound
  have switched : NatiSound (if nati.compatibleNmi4Switch nmi then
      ipaNatiStatemach kernel .tblSwitch nati else (.ok (), nati)).2 := by
    split
    · exact statemachAt_sound kernel 3 .tblSwitch nati sound
    · exact sound
  unfold ipaNatSwitchTo
  simp only
  split
  · exact sound.of_same rfl sound.tables
  · split
    · split
      · exact switched
      · exact switched.of_same rfl switched.tables
    · split
      · split
        · exact sound.of_same rfl sound.tables
        · exact sound
      · exact sound.of_same rfl sound.tables

end Callbacks

/-! ## Runs -/

/-- A call of the application interface: a trigger run through the machine, or
`ipa_nat_switch_to`. -/
inductive NatiCall
  | statemach (trigger : NatiTrigger)
  | switchTo (nmi : NatMemIn) (holdState : Bool)

/-- A call and what it returns. -/
def NatiCall.run (kernel : Kernel) : NatiCall → Nati → NatiResult
  | .statemach trigger, nati => ipaNatiStatemach kernel trigger nati
  | .switchTo nmi holdState, nati => ipaNatSwitchTo kernel nmi holdState nati

/-- Any call in any state. -/
def natiStep (kernel : Kernel) : LabelledStep Nati NatiCall :=
  guarded (fun _ _ => True) (fun nati call => (call.run kernel nati).2)

theorem natiSound_init (pdns : BitVec 8 → BitVec 32) : NatiSound (Nati.init pdns) := by
  refine ⟨fun sub hdl orig found => ?_, fun nmi natTable present => ?_⟩
  · cases found
  · cases present

/-- Every object that calls lead to is sound, whatever the kernel answers. -/
theorem natiSound_of_reaches {kernel : Kernel} {pdns : BitVec 8 → BitVec 32} {nati : Nati}
    (reached : Reaches (natiStep kernel) (Nati.init pdns) nati) : NatiSound nati := by
  refine @Reaches.invariant _ _ _ _ _ NatiSound reached (natiSound_init pdns) ?_
  rintro nati call next sound ⟨_, rfl⟩
  cases call with
  | statemach trigger => exact statemachAt_sound kernel 3 trigger nati sound
  | switchTo nmi holdState => exact ipaNatSwitchTo_sound kernel nmi holdState nati sound

end Sm8650.IpaNat
