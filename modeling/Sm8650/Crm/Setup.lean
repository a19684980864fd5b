import Sm8650.Crm.Shape

/-!
# The tables of a link that has been set up

The tables stand in the order of falling pipeline delays, each with its distance to the next one,
and there is one for every delay that a device has.
-/

namespace Sm8650.Crm

open List

/-- The tables stand in the order of falling delays and know the distance to the next one. -/
def Chained : List ReqTbl → Prop
  | [] => True
  | [_] => True
  | tbl :: next :: rest =>
    next.pd < tbl.pd ∧ tbl.pdDelta = tbl.pd - next.pd ∧ Chained (next :: rest)

theorem Chained.tail {tbl : ReqTbl} {rest : List ReqTbl} (chained : Chained (tbl :: rest)) :
    Chained rest := by
  cases rest with
  | nil => trivial
  | cons next rest => exact chained.2.2

theorem Chained.lt {tbl : ReqTbl} {rest : List ReqTbl} (chained : Chained (tbl :: rest)) :
    ∀ later ∈ rest, later.pd < tbl.pd := by
  induction rest generalizing tbl with
  | nil => exact fun _ among => absurd among not_mem_nil
  | cons next rest ih =>
    intro later among
    rcases mem_cons.mp among with rfl | deeper
    · exact chained.1
    · exact Nat.lt_trans (ih chained.2.2 later deeper) chained.1

theorem Chained.pd_injective {lTbl : List ReqTbl} (chained : Chained lTbl) :
    ∀ first ∈ lTbl, ∀ second ∈ lTbl, first.pd = second.pd → first = second := by
  induction lTbl with
  | nil => exact fun _ among => absurd among not_mem_nil
  | cons tbl rest ih =>
    intro first firstAmong second secondAmong same
    rcases mem_cons.mp firstAmong with rfl | firstLater <;>
      rcases mem_cons.mp secondAmong with rfl | secondLater
    · rfl
    · exact absurd same (Nat.ne_of_gt (chained.lt second secondLater))
    · exact absurd same (Nat.ne_of_lt (chained.lt first firstLater))
    · exact ih chained.tail first firstLater second secondLater same

/-- Where a table stands. -/
def ReqTbl.place (tbl : ReqTbl) : Nat × Nat := (tbl.pd, tbl.pdDelta)

/-- Being chained is a matter of where the tables stand. -/
theorem chained_congr {first second : List ReqTbl}
    (same : first.map ReqTbl.place = second.map ReqTbl.place) (chained : Chained second) :
    Chained first := by
  induction second generalizing first with
  | nil =>
    rw [map_nil, map_eq_nil_iff] at same
    rw [same]
    trivial
  | cons tbl rest ih =>
    cases first with
    | nil => cases same
    | cons other others =>
      rw [map_cons, map_cons, cons.injEq] at same
      obtain ⟨place, places⟩ := same
      have others_chained := ih places chained.tail
      cases others with
      | nil => trivial
      | cons next others =>
        cases rest with
        | nil => cases places
        | cons after rest =>
          simp only [map_cons, cons.injEq, ReqTbl.place, Prod.mk.injEq] at place places
          refine ⟨?_, ?_, others_chained⟩
          · rw [place.1, places.1.1]
            exact chained.1
          · rw [place.1, places.1.1, place.2]
            exact chained.2.1

namespace Link

/-! ## Adding a table -/

theorem addTblAfter_eq_cons (newTbl tbl : ReqTbl) (rest : List ReqTbl) :
    ∃ delta others, addTblAfter newTbl tbl rest = { tbl with pdDelta := delta } :: others := by
  cases rest with
  | nil => exact ⟨_, _, rfl⟩
  | cons next rest =>
    rw [addTblAfter]
    split
    · exact ⟨tbl.pdDelta, _, rfl⟩
    · exact ⟨_, _, rfl⟩

theorem chained_addTblAfter {newTbl tbl : ReqTbl} {rest : List ReqTbl}
    (chained : Chained (tbl :: rest)) (below : newTbl.pd < tbl.pd)
    (isNew : ∀ other ∈ rest, other.pd ≠ newTbl.pd) : Chained (addTblAfter newTbl tbl rest) := by
  induction rest generalizing tbl with
  | nil => exact ⟨below, rfl, trivial⟩
  | cons next rest ih =>
    rw [addTblAfter]
    split
    case isTrue deeper =>
      have later := ih chained.2.2 deeper fun other among =>
        isNew other (mem_cons_of_mem _ among)
      obtain ⟨delta, others, isCons⟩ := addTblAfter_eq_cons newTbl next rest
      rw [isCons] at later ⊢
      exact ⟨chained.1, chained.2.1, later⟩
    case isFalse notDeeper =>
      have above : next.pd < newTbl.pd := by
        have other := isNew next mem_cons_self
        omega
      exact ⟨below, rfl, above, rfl, chained.2.2⟩

theorem chained_addTblToLink {newTbl : ReqTbl} {lTbl : List ReqTbl} (chained : Chained lTbl)
    (isNew : ∀ other ∈ lTbl, other.pd ≠ newTbl.pd) : Chained (addTblToLink lTbl newTbl) := by
  cases lTbl with
  | nil => trivial
  | cons tbl rest =>
    rw [addTblToLink]
    split
    case isTrue above => exact ⟨above, rfl, chained⟩
    case isFalse notAbove =>
      have below : newTbl.pd < tbl.pd := by
        have other := isNew tbl mem_cons_self
        omega
      exact chained_addTblAfter chained below fun other among =>
        isNew other (mem_cons_of_mem _ among)

/-- A table but for its distance. -/
def undelta (tbl : ReqTbl) : ReqTbl := { tbl with pdDelta := 0 }

/-- The tables are the ones before and the new one, but for the distances. -/
theorem addTblAfter_perm (newTbl tbl : ReqTbl) (rest : List ReqTbl) :
    ((addTblAfter newTbl tbl rest).map undelta).Perm ((newTbl :: tbl :: rest).map undelta) := by
  induction rest generalizing tbl with
  | nil => exact List.Perm.swap _ _ _
  | cons next rest ih =>
    rw [addTblAfter]
    split
    case isTrue => exact ((ih next).cons (undelta tbl)).trans (List.Perm.swap _ _ _)
    case isFalse => exact List.Perm.swap _ _ _

theorem addTblToLink_perm (lTbl : List ReqTbl) (newTbl : ReqTbl) :
    ((addTblToLink lTbl newTbl).map undelta).Perm ((newTbl :: lTbl).map undelta) := by
  cases lTbl with
  | nil => exact List.Perm.refl _
  | cons tbl rest =>
    rw [addTblToLink]
    split
    case isTrue => exact List.Perm.refl _
    case isFalse => exact addTblAfter_perm newTbl tbl rest

/-- Something that does not look at the distances holds of a table of the longer list. -/
theorem exists_addTblToLink {lTbl : List ReqTbl} {newTbl : ReqTbl} {property : ReqTbl → Prop}
    (blind : ∀ tbl, property tbl ↔ property (undelta tbl)) :
    (∃ tbl ∈ addTblToLink lTbl newTbl, property tbl)
      ↔ property newTbl ∨ ∃ tbl ∈ lTbl, property tbl := by
  have through : ∀ tables : List ReqTbl,
      (∃ tbl ∈ tables, property tbl) ↔ ∃ tbl ∈ tables.map undelta, property tbl := by
    intro tables
    simp [← blind]
  rw [through, through lTbl]
  simp [(addTblToLink_perm lTbl newTbl).mem_iff, ← blind]

/-! ## Connecting the devices -/

/-- What holds of the devices and the tables while devices are connected. -/
structure Connected (link : Link) : Prop where
  chained : Chained link.lTbl
  hasTbl : ∀ pd, link.HasTbl pd ↔ ∃ dev ∈ link.devs, dev.pDelay = pd
  counted : ∀ dev ∈ link.devs, ∀ tbl ∈ link.lTbl, tbl.pd = dev.pDelay → dev.devBit < tbl.devCount
  distinct : Distinct link.devs
  atMost : ∀ dev ∈ link.devs, dev.pDelay ≤ link.maxDelay
  maxReached : link.devs = [] ∧ link.maxDelay = 0 ∨ ∃ dev ∈ link.devs, dev.pDelay = link.maxDelay

theorem connected_reserved : reserved.Connected where
  chained := trivial
  hasTbl pd := by simp [HasTbl, reserved]
  counted _ among := absurd among not_mem_nil
  distinct := List.Pairwise.nil
  atMost _ among := absurd among not_mem_nil
  maxReached := .inl ⟨rfl, rfl⟩

variable {link : Link}

/-- The tables with one for the delay of a device. -/
def tablesFor (link : Link) (pd : Nat) : List ReqTbl :=
  if link.lTbl.any fun tbl => tbl.pd = pd then link.lTbl
  else addTblToLink link.lTbl (createPdTbl pd)

theorem Connected.chained_tablesFor (connected : link.Connected) (pd : Nat) :
    Chained (link.tablesFor pd) := by
  unfold tablesFor
  split
  case isTrue => exact connected.chained
  case isFalse absent =>
    apply chained_addTblToLink connected.chained
    intro other among isPd
    exact absent (any_eq_true.mpr ⟨other, among, by simpa [createPdTbl] using isPd⟩)

theorem exists_tablesFor (link : Link) (pd : Nat) {property : ReqTbl → Prop}
    (blind : ∀ tbl, property tbl ↔ property (undelta tbl)) :
    (∃ tbl ∈ link.tablesFor pd, property tbl)
      ↔ (∃ tbl ∈ link.lTbl, property tbl) ∨ ¬link.HasTbl pd ∧ property (createPdTbl pd) := by
  unfold tablesFor
  split
  case isTrue present =>
    have has : link.HasTbl pd := by simpa [HasTbl] using present
    simp [has]
  case isFalse absent =>
    have hasNot : ¬link.HasTbl pd := by simpa [HasTbl] using absent
    rw [exists_addTblToLink blind]
    simp [hasNot, or_comm]

theorem forall_tablesFor {pd : Nat} {property : ReqTbl → Prop}
    (blind : ∀ tbl, property tbl ↔ property (undelta tbl)) (old : ∀ tbl ∈ link.lTbl, property tbl)
    (isNew : ¬link.HasTbl pd → property (createPdTbl pd)) :
    ∀ tbl ∈ link.tablesFor pd, property tbl := by
  intro tbl among
  by_contra wrong
  rcases (exists_tablesFor link pd fun tbl => not_congr (blind tbl)).mp ⟨tbl, among, wrong⟩ with
    ⟨before, isOld, isWrong⟩ | ⟨absent, isWrong⟩
  · exact isWrong (old before isOld)
  · exact isWrong (isNew absent)

/-- The device that is connected to a link. -/
def deviceOf (link : Link) (info : DeviceInfo) : Device :=
  { info with
    devBit :=
      match (link.tablesFor info.pDelay).find? fun tbl => tbl.pd = info.pDelay with
      | some tbl => tbl.devCount
      | none => 0 }

theorem connect_eq (link : Link) (info : DeviceInfo) :
    link.connect info =
      { link with
        devs := link.devs ++ [link.deviceOf info]
        lTbl := (link.tablesFor info.pDelay).map fun tbl =>
          if tbl.pd = info.pDelay then
            { tbl with
              devCount := tbl.devCount + 1
              devMask :=
                (tbl.devMask.setWidth 64 ||| bit (link.deviceOf info).devBit).setWidth 32 }
          else tbl
        maxDelay := max link.maxDelay info.pDelay
        minDelay := min link.minDelay info.pDelay } := rfl

section

variable (connected : link.Connected)

include connected

/-- The device's bit is the number of devices that its table had. -/
theorem Connected.devBit_deviceOf (info : DeviceInfo) :
    ∀ tbl ∈ link.tablesFor info.pDelay, tbl.pd = info.pDelay →
      (link.deviceOf info).devBit = tbl.devCount := by
  intro tbl among isPd
  cases found : (link.tablesFor info.pDelay).find? fun tbl => tbl.pd = info.pDelay with
  | none => simpa [isPd] using find?_eq_none.mp found tbl among
  | some first =>
    have firstPd : first.pd = info.pDelay := by simpa using find?_some found
    have same := (connected.chained_tablesFor info.pDelay).pd_injective first
      (mem_of_find?_eq_some found) tbl among (firstPd.trans isPd.symm)
    unfold deviceOf
    rw [found, ← same]

/-- The devices before are counted in the tables. -/
theorem Connected.counted_tablesFor (pd : Nat) :
    ∀ dev ∈ link.devs, ∀ tbl ∈ link.tablesFor pd, tbl.pd = dev.pDelay →
      dev.devBit < tbl.devCount := by
  intro dev among
  refine forall_tablesFor (fun _ => Iff.rfl) (connected.counted dev among) fun absent isPd => ?_
  have isDelay : pd = dev.pDelay := isPd
  exact absurd ((connected.hasTbl pd).mpr ⟨dev, among, isDelay.symm⟩) absent

theorem Connected.hasTbl_tablesFor (pd other : Nat) :
    (∃ tbl ∈ link.tablesFor pd, tbl.pd = other)
      ↔ (∃ dev ∈ link.devs, dev.pDelay = other) ∨ pd = other := by
  rw [exists_tablesFor link pd fun _ => Iff.rfl]
  have before := connected.hasTbl other
  unfold HasTbl at before
  rw [before]
  by_cases isOther : pd = other
  · subst isOther
    rw [connected.hasTbl pd]
    exact ⟨fun _ => .inr rfl, fun _ => (em _).imp_right fun absent => ⟨absent, rfl⟩⟩
  · simp [createPdTbl, isOther]

theorem Connected.connect (info : DeviceInfo) : (link.connect info).Connected := by
  have isBit := connected.devBit_deviceOf info
  have older := connected.counted_tablesFor info.pDelay
  rw [connect_eq]
  constructor
  case chained =>
    apply chained_congr _ (connected.chained_tablesFor info.pDelay)
    rw [map_map]
    apply map_congr_left
    intro tbl _
    dsimp only [Function.comp_apply]
    split
    · rfl
    · rfl
  case hasTbl =>
    intro pd
    have same := connected.hasTbl_tablesFor info.pDelay pd
    simp only [HasTbl, mem_map, exists_exists_and_eq_and, mem_append,
      mem_singleton, or_and_right, exists_or, exists_eq_left]
    rw [show (link.deviceOf info).pDelay = info.pDelay from rfl, ← same]
    constructor
    · rintro ⟨tbl, among, isPd⟩
      refine ⟨tbl, among, ?_⟩
      split at isPd
      · exact isPd
      · exact isPd
    · rintro ⟨tbl, among, isPd⟩
      refine ⟨tbl, among, ?_⟩
      split
      · exact isPd
      · exact isPd
  case counted =>
    intro dev devAmong tbl tblAmong isPd
    obtain ⟨before, among, rfl⟩ := mem_map.mp tblAmong
    rcases mem_append.mp devAmong with isOld | isNew
    · split at isPd
      case isTrue isDelay =>
        rw [if_pos isDelay]
        exact Nat.lt_succ_of_lt (older dev isOld before among isPd)
      case isFalse notDelay =>
        rw [if_neg notDelay]
        exact older dev isOld before among isPd
    · rw [mem_singleton.mp isNew] at isPd ⊢
      have isDelay : before.pd = info.pDelay := by
        split at isPd
        · exact isPd
        · exact isPd
      rw [if_pos isDelay, isBit before among isDelay]
      exact Nat.lt_succ_self _
  case distinct =>
    refine pairwise_append.mpr ⟨connected.distinct, pairwise_singleton _ _, ?_⟩
    intro dev among new isNew sameDelay
    rw [mem_singleton.mp isNew] at sameDelay ⊢
    obtain ⟨tbl, tblAmong, isPd⟩ :=
      (connected.hasTbl_tablesFor info.pDelay info.pDelay).mpr (.inr rfl)
    rw [isBit tbl tblAmong isPd]
    exact Nat.ne_of_lt (older dev among tbl tblAmong (isPd.trans sameDelay.symm))
  case atMost =>
    intro dev among
    rcases mem_append.mp among with isOld | isNew
    · exact Nat.le_trans (connected.atMost dev isOld) (Nat.le_max_left _ _)
    · rw [mem_singleton.mp isNew]
      exact Nat.le_max_right _ _
  case maxReached =>
    right
    rcases Nat.le_total link.maxDelay info.pDelay with below | above
    · refine ⟨link.deviceOf info, mem_append_right _ mem_cons_self, ?_⟩
      exact (Nat.max_eq_right below).symm
    · rcases connected.maxReached with ⟨noDevs, zero⟩ | ⟨dev, among, isMax⟩
      · refine ⟨link.deviceOf info, mem_append_right _ mem_cons_self, ?_⟩
        rw [zero]
        rfl
      · exact ⟨dev, mem_append_left _ among, isMax.trans (Nat.max_eq_left above).symm⟩

theorem connected_foldl (infos : List DeviceInfo) : (infos.foldl Link.connect link).Connected := by
  induction infos generalizing link with
  | nil => exact connected
  | cons info rest ih => exact ih (connected.connect info)

end

/-! ## The masks of the tables -/

/-- The mask of a table has the bits of the devices of its delay, as far as it has room. -/
def Masked (link : Link) : Prop :=
  ∀ tbl ∈ link.lTbl, ∀ nr, tbl.devMask.getLsbD nr = true
    ↔ nr < 32 ∧ ∃ dev ∈ link.devs, dev.pDelay = tbl.pd ∧ dev.devBit = nr

/-- Before a device is connected its table has the mask of the other devices. -/
theorem Masked.tablesFor (masked : link.Masked) (connected : link.Connected) (pd : Nat) :
    ∀ tbl ∈ link.tablesFor pd, ∀ nr, tbl.devMask.getLsbD nr = true
      ↔ nr < 32 ∧ ∃ dev ∈ link.devs, dev.pDelay = tbl.pd ∧ dev.devBit = nr := by
  refine forall_tablesFor (fun _ => Iff.rfl) masked fun absent nr => ?_
  have noDevice : ¬∃ dev ∈ link.devs, dev.pDelay = (createPdTbl pd).pd ∧ dev.devBit = nr :=
    fun ⟨dev, devAmong, isPd, _⟩ => absent ((connected.hasTbl pd).mpr ⟨dev, devAmong, isPd⟩)
  have noBit : (createPdTbl pd).devMask.getLsbD nr = false := by simp [createPdTbl]
  rw [noBit]
  exact ⟨fun isSet => (nomatch isSet), fun exist => absurd exist.2 noDevice⟩

theorem Masked.connect (masked : link.Masked) (connected : link.Connected) (info : DeviceInfo) :
    (link.connect info).Masked := by
  have before := masked.tablesFor connected info.pDelay
  rw [connect_eq]
  intro tbl among nr
  obtain ⟨old, oldAmong, rfl⟩ := mem_map.mp among
  have isOld := before old oldAmong nr
  split
  case isTrue isDelay =>
    rw [TblSlot.getLsbD_or_bit, Bool.or_eq_true, isOld]
    simp only [Bool.and_eq_true, decide_eq_true_eq, mem_append, mem_singleton,
      or_and_right, exists_or, exists_eq_left]
    have newDelay : (link.deviceOf info).pDelay = old.pd := isDelay.symm
    rw [and_or_left, eq_true newDelay, true_and]
  case isFalse notDelay =>
    rw [isOld]
    have newDelay : (link.deviceOf info).pDelay ≠ old.pd := fun same => notDelay same.symm
    simp [newDelay]

theorem masked_foldl (connected : link.Connected) (masked : link.Masked)
    (infos : List DeviceInfo) : (infos.foldl Link.connect link).Masked := by
  induction infos generalizing link with
  | nil => exact masked
  | cons info rest ih => exact ih (connected.connect info) (masked.connect connected info)

/-! ## The link that has been set up -/

theorem tblSetAllSkipCnt_shape (lTbl : List ReqTbl) :
    (tblSetAllSkipCnt lTbl).map ReqTbl.shape = lTbl.map ReqTbl.shape := by
  cases lTbl with
  | nil => rfl
  | cons first rest => exact map_shape fun _ => rfl

theorem skip_tblSetAllSkipCnt {lTbl : List ReqTbl} {max : Nat}
    (first : ∀ tbl ∈ lTbl.head?, tbl.pd = max) :
    ∀ tbl ∈ tblSetAllSkipCnt lTbl, tbl.skipTraverse = max - tbl.pd := by
  cases lTbl with
  | nil => exact fun _ none => absurd none not_mem_nil
  | cons head rest =>
    intro tbl among
    obtain ⟨before, -, rfl⟩ := mem_map.mp among
    exact congrArg (· - before.pd) (first head rfl)

/-- What the steps of a link find of its devices and tables. -/
structure Framed (link : Link) : Prop where
  chained : Chained link.lTbl
  first : ∀ tbl ∈ link.lTbl.head?, tbl.pd = link.maxDelay
  hasTbl : ∀ dev ∈ link.devs, link.HasTbl dev.pDelay
  distinct : Distinct link.devs
  masked : link.Masked
  delayValid : link.maxDelay < camPipelineDelayMax

theorem Framed.keep {next : Link} (framed : link.Framed) (keeps : link.KeepsShape next) :
    next.Framed := by
  have places : next.lTbl.map ReqTbl.place = link.lTbl.map ReqTbl.place := by
    have same := congrArg (map fun shape : Nat × BitVec 32 × Nat => (shape.1, shape.2.2))
      keeps.shape
    rw [map_map, map_map] at same
    exact same
  have shapes : ∀ tbl ∈ next.lTbl, ∃ before ∈ link.lTbl, before.shape = tbl.shape := by
    intro tbl among
    have isShape : tbl.shape ∈ link.lTbl.map ReqTbl.shape := by
      rw [← keeps.shape]
      exact mem_map_of_mem among
    exact mem_map.mp isShape
  constructor
  case chained => exact chained_congr places framed.chained
  case first =>
    intro tbl isFirst
    have heads : next.lTbl.head?.map ReqTbl.place = link.lTbl.head?.map ReqTbl.place := by
      rw [← head?_map, ← head?_map, places]
    rw [isFirst, Option.map_some, eq_comm, Option.map_eq_some_iff] at heads
    obtain ⟨before, isBefore, isPlace⟩ := heads
    rw [keeps.maxDelay, ← framed.first before isBefore]
    exact (congrArg Prod.fst isPlace).symm
  case hasTbl =>
    intro dev among
    rw [keeps.devs] at among
    exact (keeps.hasTbl _).mpr (framed.hasTbl dev among)
  case distinct =>
    rw [keeps.devs]
    exact framed.distinct
  case masked =>
    intro tbl among nr
    obtain ⟨before, beforeAmong, same⟩ := shapes tbl among
    have isPd : before.pd = tbl.pd := congrArg Prod.fst same
    have isMask : before.devMask = tbl.devMask := congrArg (·.2.1) same
    rw [keeps.devs, ← isMask, ← isPd]
    exact framed.masked before beforeAmong nr
  case delayValid =>
    rw [keeps.maxDelay]
    exact framed.delayValid

theorem Connected.framed (connected : link.Connected) (masked : link.Masked) : link.Framed where
  chained := connected.chained
  first tbl isFirst := by
    have chained := connected.chained
    rcases connected.maxReached with ⟨noDevs, _⟩ | ⟨dev, among, isMax⟩
    · have has : link.HasTbl tbl.pd := ⟨tbl, mem_of_mem_head? isFirst, rfl⟩
      obtain ⟨dev, among, _⟩ := (connected.hasTbl tbl.pd).mp has
      rw [noDevs] at among
      exact absurd among not_mem_nil
    · obtain ⟨largest, largestAmong, isPd⟩ := (connected.hasTbl dev.pDelay).mpr ⟨dev, among, rfl⟩
      obtain ⟨owner, ownerAmong, isOwner⟩ :=
        (connected.hasTbl tbl.pd).mp ⟨tbl, mem_of_mem_head? isFirst, rfl⟩
      have atMost := connected.atMost owner ownerAmong
      cases tables : link.lTbl with
      | nil =>
        rw [tables] at largestAmong
        exact absurd largestAmong not_mem_nil
      | cons head rest =>
        rw [tables] at isFirst largestAmong chained
        have isHead : head = tbl := Option.some.inj isFirst
        rw [isHead] at largestAmong chained
        rcases mem_cons.mp largestAmong with rfl | later
        · exact isPd.trans isMax
        · have above := chained.lt largest later
          omega
  hasTbl dev among := (connected.hasTbl dev.pDelay).mpr ⟨dev, among, rfl⟩
  distinct := connected.distinct
  masked := masked
  delayValid := by
    rcases connected.maxReached with ⟨_, isZero⟩ | ⟨dev, _, isMax⟩
    · rw [isZero]
      decide
    · rw [← isMax]
      exact dev.delayValid

theorem framed_setup (infos : List DeviceInfo) : (setup infos).Framed := by
  have connected := connected_foldl connected_reserved infos
  have masked : reserved.Masked := fun _ among => absurd among not_mem_nil
  apply (connected.framed (masked_foldl connected_reserved masked infos)).keep
  exact ⟨rfl, rfl, rfl, tblSetAllSkipCnt_shape _⟩

theorem distinct_setup (infos : List DeviceInfo) : Distinct (setup infos).devs :=
  (connected_foldl connected_reserved infos).distinct

end Link

end Sm8650.Crm
