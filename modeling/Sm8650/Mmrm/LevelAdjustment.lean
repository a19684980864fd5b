import Sm8650.Mmrm.PeakCurrent

/-!
# The level of a request

A request for a level below the aggregate level is adjusted to the levels that other clients
hold. The scan stops at a client on the aggregate level; short of one, it keeps the last client
above the requested level, which need not be the highest.
-/

namespace Sm8650.Mmrm

open List SwInfo

theorem VddLevel.lt_def {first second : VddLevel} :
    first < second ↔ first.index < second.index := Iff.rfl

theorem VddLevel.index_injective {first second : VddLevel} (same : first.index = second.index) :
    first = second := by
  cases first <;> cases second <;> simp_all [index]

/-- A level is the highest of a set of levels. -/
structure IsHighest (levels : Set VddLevel) (level : VddLevel) : Prop where
  mem : level ∈ levels
  upper : ∀ other ∈ levels, other.index ≤ level.index

variable {n : Nat}

/-- A client of another clock source, with a clock and a rate. -/
def SwInfo.other (info : SwInfo n) (clkSrcId : Nat) (c : Fin n) : Bool :=
  (info.clkClientTbl c).active && decide ((info.clkClientTbl c).clkSrcId ≠ clkSrcId)

/-- The requested level and the levels of the other clients. -/
def SwInfo.neededLevels (info : SwInfo n) (clkSrcId : Nat) (reqLevel : VddLevel) :
    Set VddLevel :=
  {level | level = reqLevel
    ∨ ∃ c, info.other clkSrcId c = true ∧ level = (info.clkClientTbl c).vddLevel}

/-- Another client holds a level above the requested one. -/
def SwInfo.raising (info : SwInfo n) (clkSrcId : Nat) (reqLevel : VddLevel) (c : Fin n) : Bool :=
  info.other clkSrcId c && decide (reqLevel < (info.clkClientTbl c).vddLevel)

/-- The last client in the table that holds a level above the requested one. -/
def SwInfo.lastRaising (info : SwInfo n) (clkSrcId : Nat) (reqLevel : VddLevel) : Option (Fin n) :=
  ((List.finRange n).filter (info.raising clkSrcId reqLevel)).getLast?

/-- No client holds a level above that of the last one above the requested level. -/
def SwInfo.LastIsHighest (info : SwInfo n) (clkSrcId : Nat) (reqLevel : VddLevel) : Prop :=
  ∀ last ∈ info.lastRaising clkSrcId reqLevel, ∀ c, info.other clkSrcId c = true →
    (info.clkClientTbl c).vddLevel.index ≤ (info.clkClientTbl last).vddLevel.index

section Loop

variable {info : SwInfo n} {clkSrcId : Nat} {reqLevel : VddLevel}

theorem SwInfo.other_eq_false {c : Fin n} : info.other clkSrcId c = false ↔
    (info.clkClientTbl c).active = false ∨ (info.clkClientTbl c).clkSrcId = clkSrcId := by
  simp only [other, Bool.and_eq_false_iff, decide_eq_false_iff_not, not_not]

/-- The scan stops at another client on the aggregate level. -/
theorem checkReqLevelLoop_stops {clients : List (Fin n)} {c : Fin n} (among : c ∈ clients)
    (isOther : info.other clkSrcId c = true)
    (atAggreg : (info.clkClientTbl c).vddLevel = info.aggregLevel) (nextMax : Option VddLevel) :
    (checkReqLevelLoop info clkSrcId reqLevel clients nextMax).1 = true := by
  fun_induction checkReqLevelLoop info clkSrcId reqLevel clients nextMax with
  | case1 => exact absurd among not_mem_nil
  | case2 d rest nextMax entry skipped ih =>
    rcases mem_cons.mp among with rfl | later
    · rw [other_eq_false.mpr skipped] at isOther
      exact absurd isOther Bool.false_ne_true
    · exact ih later
  | case3 => rfl
  | case4 d rest nextMax entry _ notAggreg _ ih =>
    rcases mem_cons.mp among with rfl | later
    · exact absurd atAggreg notAggreg
    · exact ih later
  | case5 d rest nextMax entry _ notAggreg _ ih =>
    rcases mem_cons.mp among with rfl | later
    · exact absurd atAggreg notAggreg
    · exact ih later

/-- Where all other clients are below the aggregate level, the scan keeps the last one above
the requested level. -/
theorem checkReqLevelLoop_below {clients : List (Fin n)}
    (below : ∀ c ∈ clients, info.other clkSrcId c = true →
      (info.clkClientTbl c).vddLevel < info.aggregLevel) (nextMax : Option VddLevel) :
    checkReqLevelLoop info clkSrcId reqLevel clients nextMax
      = (false, ((clients.filter (info.raising clkSrcId reqLevel)).getLast?.map
          fun c => (info.clkClientTbl c).vddLevel).or nextMax) := by
  fun_induction checkReqLevelLoop info clkSrcId reqLevel clients nextMax with
  | case1 => rfl
  | case2 d rest nextMax entry skipped ih =>
    have passes : info.raising clkSrcId reqLevel d = false := by
      rw [raising, other_eq_false.mpr skipped, Bool.false_and]
    rw [ih fun c among => below c (mem_cons_of_mem d among), filter_cons_of_neg (by simp [passes])]
  | case3 d rest nextMax entry considered atAggreg =>
    have isOther : info.other clkSrcId d = true := by
      rw [← Bool.not_eq_false, other_eq_false]
      exact considered
    have under := below d mem_cons_self isOther
    rw [← atAggreg] at under
    exact absurd under (Nat.lt_irrefl _)
  | case4 d rest nextMax entry considered _ between ih =>
    have isOther : info.other clkSrcId d = true := by
      rw [← Bool.not_eq_false, other_eq_false]
      exact considered
    have raises : info.raising clkSrcId reqLevel d = true := by
      rw [raising, isOther]
      exact decide_eq_true between.2
    rw [ih fun c among => below c (mem_cons_of_mem d among),
      filter_cons_of_pos raises, getLast?_cons]
    cases (rest.filter (info.raising clkSrcId reqLevel)).getLast? with
    | none => rfl
    | some later => rfl
  | case5 d rest nextMax entry considered _ notBetween ih =>
    have isOther : info.other clkSrcId d = true := by
      rw [← Bool.not_eq_false, other_eq_false]
      exact considered
    have under := below d mem_cons_self isOther
    have passes : ¬ info.raising clkSrcId reqLevel d = true := by
      rw [raising, isOther, Bool.true_and, decide_eq_true_eq]
      exact fun above => notBetween ⟨under, above⟩
    rw [ih fun c among => below c (mem_cons_of_mem d among), filter_cons_of_neg passes]

end Loop

section Adjusted

variable {info : SwInfo n} {clkSrcId : Nat} {reqLevel : VddLevel}

theorem SwInfo.active_of_other {c : Fin n} (isOther : info.other clkSrcId c = true) :
    (info.clkClientTbl c).active = true :=
  (Bool.and_eq_true_iff.mp isOther).1

theorem SwInfo.mem_raising {c : Fin n} : info.raising clkSrcId reqLevel c = true ↔
    info.other clkSrcId c = true ∧ reqLevel.index < (info.clkClientTbl c).vddLevel.index := by
  rw [raising, Bool.and_eq_true, decide_eq_true_eq, VddLevel.lt_def]

/-- The last client above the requested level is one of the other clients. -/
theorem SwInfo.lastRaising_raising {last : Fin n}
    (isLast : info.lastRaising clkSrcId reqLevel = some last) :
    info.raising clkSrcId reqLevel last = true :=
  (mem_filter.mp (mem_of_getLast? isLast)).2

/-- Without a client above the requested level, no client needs more than it. -/
theorem SwInfo.not_raising_of_lastRaising (nobody : info.lastRaising clkSrcId reqLevel = none)
    (c : Fin n) : ¬ info.raising clkSrcId reqLevel c = true := by
  intro raises
  rw [lastRaising, getLast?_eq_none_iff] at nobody
  exact filter_eq_nil_iff.mp nobody c (mem_finRange c) raises

/-- Where all other clients are below the aggregate level, the level of the last one above
the requested level is taken. -/
theorem checkReqLevel_below (lower : reqLevel < info.aggregLevel)
    (below : ∀ c, info.other clkSrcId c = true →
      (info.clkClientTbl c).vddLevel < info.aggregLevel) :
    checkReqLevel info clkSrcId reqLevel
      = match info.lastRaising clkSrcId reqLevel with
        | none => reqLevel
        | some last => (info.clkClientTbl last).vddLevel := by
  rw [checkReqLevel, if_pos lower, checkReqLevelLoop_below fun c _ => below c, ← lastRaising]
  cases isLast : info.lastRaising clkSrcId reqLevel with
  | none => rfl
  | some last =>
    exact if_pos (mem_raising.mp (lastRaising_raising isLast)).2

/-- Another client on the aggregate level keeps it. -/
theorem checkReqLevel_atAggreg (lower : reqLevel < info.aggregLevel) {c : Fin n}
    (isOther : info.other clkSrcId c = true)
    (atAggreg : (info.clkClientTbl c).vddLevel = info.aggregLevel) :
    checkReqLevel info clkSrcId reqLevel = info.aggregLevel := by
  rw [checkReqLevel, if_pos lower]
  have stops : (checkReqLevelLoop info clkSrcId reqLevel (finRange n) none).1 = true :=
    checkReqLevelLoop_stops (mem_finRange c) isOther atAggreg none
  rcases scan : checkReqLevelLoop info clkSrcId reqLevel (finRange n) none with ⟨stopped, nextMax⟩
  rw [scan] at stops
  cases stops
  rfl

/-- As long as no active client is above the aggregate level, the adjusted level is the
highest one needed exactly if the request is not below the aggregate level, or another client
is on the aggregate level, or no client is above the last one that is above the request. -/
theorem checkReqLevel_isHighest_iff (info : SwInfo n) (clkSrcId : Nat) (reqLevel : VddLevel)
    (bounded : ∀ c, (info.clkClientTbl c).active = true →
      (info.clkClientTbl c).vddLevel.index ≤ info.aggregLevel.index) :
    IsHighest (info.neededLevels clkSrcId reqLevel) (checkReqLevel info clkSrcId reqLevel)
      ↔ info.aggregLevel.index ≤ reqLevel.index
        ∨ (∃ c, info.other clkSrcId c = true ∧ (info.clkClientTbl c).vddLevel = info.aggregLevel)
        ∨ info.LastIsHighest clkSrcId reqLevel := by
  have otherBounded : ∀ c, info.other clkSrcId c = true →
      (info.clkClientTbl c).vddLevel.index ≤ info.aggregLevel.index := fun c isOther =>
    bounded c (active_of_other isOther)
  by_cases lower : reqLevel < info.aggregLevel
  · by_cases stops : ∃ c, info.other clkSrcId c = true
        ∧ (info.clkClientTbl c).vddLevel = info.aggregLevel
    · refine iff_of_true ?_ (.inr (.inl stops))
      obtain ⟨c, isOther, atAggreg⟩ := stops
      rw [checkReqLevel_atAggreg lower isOther atAggreg]
      refine ⟨.inr ⟨c, isOther, atAggreg.symm⟩, ?_⟩
      rintro level (rfl | ⟨d, dOther, rfl⟩)
      · exact Nat.le_of_lt lower
      · exact otherBounded d dOther
    · have below : ∀ c, info.other clkSrcId c = true →
          (info.clkClientTbl c).vddLevel < info.aggregLevel := fun c isOther =>
        Nat.lt_of_le_of_ne (otherBounded c isOther) fun same =>
          stops ⟨c, isOther, VddLevel.index_injective same⟩
      rw [checkReqLevel_below lower below, or_iff_right (Nat.not_le.mpr lower), or_iff_right stops]
      cases isLast : info.lastRaising clkSrcId reqLevel with
      | none =>
        refine iff_of_true ⟨.inl rfl, ?_⟩ fun last isSome => by simp [isLast] at isSome
        rintro level (rfl | ⟨c, isOther, rfl⟩)
        · exact Nat.le_refl _
        · have notRaising := not_raising_of_lastRaising isLast c
          rw [mem_raising] at notRaising
          exact Nat.le_of_not_lt fun above => notRaising ⟨isOther, above⟩
      | some last =>
        obtain ⟨lastOther, lastAbove⟩ :=
          mem_raising.mp (lastRaising_raising isLast)
        constructor
        · intro isHighest other isSome c isOther
          rw [isLast, Option.mem_some_iff] at isSome
          rw [← isSome]
          exact isHighest.upper _ (.inr ⟨c, isOther, rfl⟩)
        · intro lastIsHighest
          refine ⟨.inr ⟨last, lastOther, rfl⟩, ?_⟩
          rintro level (rfl | ⟨c, isOther, rfl⟩)
          · exact Nat.le_of_lt lastAbove
          · exact lastIsHighest last isLast c isOther
  · have upper : info.aggregLevel.index ≤ reqLevel.index := Nat.le_of_not_lt lower
    rw [checkReqLevel, if_neg lower]
    refine iff_of_true ⟨.inl rfl, ?_⟩ (.inl upper)
    rintro level (rfl | ⟨c, isOther, rfl⟩)
    · exact Nat.le_refl _
    · exact Nat.le_trans (otherBounded c isOther) upper

/-- An entry with a clock at a level, for the source `id`. -/
def entryAt (id : Nat) (level : VddLevel) : ClientEntry :=
  { prepareEntry ⟨0, id, 0, 0, 1⟩ with
    clk := true, client := true, clkRate := 100, vddLevel := level, numHwBlocks := 1 }

/-- The requester of source 0 on the aggregate level, and two other clients. -/
def threeClients (second third : VddLevel) : SwInfo 3 where
  clkClientTbl := fun c => entryAt c.val ([VddLevel.turbo, second, third].getD c.val .lowSvs)
  throttleClientsInfo := []
  throttledClients := []
  threshold := 1000
  aggregVal := 0
  aggregLevel := .turbo

/-- The last client above the request holds the higher level. -/
theorem checkReqLevel_isHighest_iff_ascending :
    IsHighest ((threeClients .svs .nom).neededLevels 0 .lowSvs)
      (checkReqLevel (threeClients .svs .nom) 0 .lowSvs) :=
  (checkReqLevel_isHighest_iff (threeClients .svs .nom) 0 .lowSvs (by decide)).mpr
    (.inr (.inr (by
      intro last isLast c isOther
      have found : (threeClients .svs .nom).lastRaising 0 .lowSvs = some 2 := by decide
      rw [found, Option.mem_some_iff] at isLast
      rw [← isLast]
      revert c
      decide)))

/-- Two clients are on levels between the request and the aggregate level, and the lower one
comes last: the level of the higher one is lost. -/
theorem checkReqLevel_not_highest :
    (∀ c, ((threeClients .nom .svs).clkClientTbl c).active = true →
        ((threeClients .nom .svs).clkClientTbl c).vddLevel.index
          ≤ (threeClients .nom .svs).aggregLevel.index)
      ∧ checkReqLevel (threeClients .nom .svs) 0 .lowSvs = .svs
      ∧ ¬ IsHighest ((threeClients .nom .svs).neededLevels 0 .lowSvs)
        (checkReqLevel (threeClients .nom .svs) 0 .lowSvs) := by
  have adjusted : checkReqLevel (threeClients .nom .svs) 0 .lowSvs = .svs := by decide
  refine ⟨by decide, adjusted, fun isHighest => ?_⟩
  have upper := isHighest.upper .nom (.inr ⟨1, by decide, rfl⟩)
  exact absurd upper (by decide)

end Adjusted

end Sm8650.Mmrm
