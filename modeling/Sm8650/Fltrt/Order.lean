import Sm8650.Fltrt.BodyRoundTrip
import Sm8650.Fltrt.Translators

/-!
# The order of emissions

A body has a place for each kind of equation. A translator that writes bytes leaves the same
body as the record that the same steps fill, provided that it comes to the kinds in the order
of their places.
-/

namespace Sm8650.Fltrt

open Data Data.Words List Emission

/-! ## Places -/

namespace Emission

/-- The place of an emission in a body. Place 8 belongs to the equations that no attribute
is assigned to. -/
def place : Emission → Nat
  | .pureAck | .tos _ => 0
  | .protocol _ => 1
  | .tc _ => 2
  | .meq128 _ => 3
  | .meq32 _ => 4
  | .ihlMeq32 _ => 5
  | .metadata _ _ => 6
  | .range16 _ => 7
  | .flowLabel _ => 9
  | .isFrag | .stray _ => 10

/-- The first place that has to be empty yet: its own, if there is room for one emission. -/
def ready (emission : Emission) : Nat :=
  if emission.slots.isSome then emission.place + 1 else emission.place

/-- The emission stands for an equation that the hardware supports. -/
def Fits (table : EqTable) : Emission → Prop
  | .pureAck => table.valid .isPureAck = true
  | .tos _ => table.valid .tosEq = true
  | .stray _ => False
  | _ => True

end Emission

/-- The bytes of a record in one place of its body. -/
def IpfltriRuleEq.lane (table : EqTable) (a : IpfltriRuleEq) : Nat → Streams
  | 0 => .concat [.when (table.valid .tosEq && a.tosEqPresent) ⟨[a.tosEq], []⟩,
      .when (table.valid .isPureAck && a.tosEqPresent) ⟨[0], []⟩]
  | 1 => .when a.protocolEqPresent ⟨[a.protocolEq], []⟩
  | 2 => .when a.tcEqPresent ⟨[a.tcEq], []⟩
  | 3 => .concat [.when (0 < a.numOffsetMeq128) (meq128Streams a.offsetMeq128.1),
      .when (1 < a.numOffsetMeq128) (meq128Streams a.offsetMeq128.2)]
  | 4 => .concat [.when (0 < a.numOffsetMeq32) (meq32Streams a.offsetMeq32.1),
      .when (1 < a.numOffsetMeq32) (meq32Streams a.offsetMeq32.2)]
  | 5 => .concat [.when (0 < a.numIhlOffsetMeq32) (meq32Streams a.ihlOffsetMeq32.1),
      .when (1 < a.numIhlOffsetMeq32) (meq32Streams a.ihlOffsetMeq32.2)]
  | 6 => .when a.metadataMeq32Present (metadataStreams a.metadataMeq32)
  | 7 => .concat [.when (0 < a.numIhlOffsetRange16) (range16Streams a.ihlOffsetRange16.1),
      .when (1 < a.numIhlOffsetRange16) (range16Streams a.ihlOffsetRange16.2)]
  | 8 => .concat [.when a.ihlOffsetEq32Present (eq32Streams a.ihlOffsetEq32),
      .when a.ihlOffsetEq16Present (eq16Streams a.ihlOffsetEq16)]
  | 9 => .when a.flEqPresent (flStreams a.flEq)
  | _ => .none

/-- The places of a body. -/
def places : Nat := 11

variable (table : EqTable)

theorem streams_eq_lanes (a : IpfltriRuleEq) :
    a.streams table = .concat ((range places).map (a.lane table)) := by
  have listed : range places = [0, 1, 2, 3, 4, 5, 6, 7, 8, 9, 10] := rfl
  rw [listed]
  unfold IpfltriRuleEq.streams parts
  simp only [Part.of, IpfltriRuleEq.lane, Streams.concat, Streams.none, map_cons,
    map_nil, flatMap_cons, flatMap_nil, append_nil, append_assoc]

theorem concat_append (first second : List Streams) :
    Streams.concat (first ++ second) = .concat [.concat first, .concat second] := by
  simp [Streams.concat]

theorem concat_none (streams : Streams) : Streams.concat [streams, .none] = streams := by
  simp [Streams.concat, Streams.none]

theorem none_concat (streams : Streams) : Streams.concat [.none, streams] = streams := by
  simp [Streams.concat, Streams.none]

theorem concat_concat (first second third : Streams) :
    Streams.concat [.concat [first, second], third] = .concat [first, .concat [second, third]] := by
  simp [Streams.concat]

/-- A place that grows while the places behind it are empty puts its bytes at the end. -/
theorem concat_lanes_grown {before after : Nat → Streams} {streams : Streams} {place n : Nat}
    (inside : place < n) (others : ∀ i, i ≠ place → after i = before i)
    (grown : after place = .concat [before place, streams])
    (empty : ∀ i, place < i → before i = .none) :
    Streams.concat ((range n).map after) = .concat [.concat ((range n).map before), streams] := by
  induction n with
  | zero => exact absurd inside (Nat.not_lt_zero _)
  | succ n ih =>
    have single : ∀ lanes : Streams, Streams.concat [lanes] = lanes := fun lanes => by
      simp [Streams.concat]
    rw [range_succ, map_append, map_append, map_singleton,
      map_singleton, concat_append, concat_append, single, single]
    rcases Nat.lt_succ_iff_lt_or_eq.mp inside with below | rfl
    · rw [ih below, others n (Nat.ne_of_gt below), empty n below, concat_none, concat_none]
    · have same : (range place).map after = (range place).map before :=
        map_congr_left fun i listed => others i (Nat.ne_of_lt (mem_range.mp listed))
      rw [same, grown, concat_concat]

/-! ## One emission -/

variable {slots : Slots}

section Emission

variable {table : EqTable} {q : Progress IpfltriRuleEq} {emission : Emission}

/-- The record after an emission. -/
def emitted (table : EqTable) (q : Progress IpfltriRuleEq) (emission : Emission) :
    IpfltriRuleEq :=
  finishEq (q.emit table store emission)

theorem lane_other (emission : Emission) {i : Nat} (other : i ≠ emission.place) :
    (emitted table q emission).lane table i = (finishEq q).lane table i := by
  rcases i with _ | _ | _ | _ | _ | _ | _ | _ | _ | _ | i
  all_goals cases emission
  all_goals first | rfl | exact absurd rfl other

/-- The slot that an emission would take. -/
def slotOf (q : Progress IpfltriRuleEq) (emission : Emission) : Nat :=
  (emission.slots.map q.used).getD 0

theorem slot_lt (room : q.ranOut emission = false)
    (paired : emission.slots = some slots) : q.used slots = 0 ∨ q.used slots = 1 := by
  unfold Progress.ranOut at room
  rw [paired] at room
  have small := of_decide_eq_false room
  omega

theorem emitted_single (single : emission.slots = none) :
    emitted table q emission =
      { emission.store 0 (finishEq q) with
        ruleEqBitmap := (q.emit table store emission).enRule } := by
  cases emission with
  | meq128 _ | meq32 _ | ihlMeq32 _ | range16 _ => cases single
  | _ => rfl

/-- The bytes of an emission come last in its own place. -/
theorem lane_own (fits : emission.Fits table) (room : q.ranOut emission = false)
    (empty : emission.slots = none → (finishEq q).lane table emission.place = .none) :
    (emitted table q emission).lane table emission.place =
      .concat [(finishEq q).lane table emission.place, emission.streams] := by
  have either := table.valid_tosEq
  cases emission with
  | pureAck =>
    have ack : table.valid .isPureAck = true := fits
    rw [empty rfl, emitted_single rfl]
    simp [place, IpfltriRuleEq.lane, store, ack, either, Streams.when, streams]
  | tos value =>
    have tos : table.valid .tosEq = true := fits
    have ack : table.valid .isPureAck = false := by rw [← Bool.not_eq_true', ← either, tos]
    rw [empty rfl, emitted_single rfl]
    simp [place, IpfltriRuleEq.lane, store, ack, tos, Streams.concat,
      Streams.when, Streams.none, streams]
  | protocol value | tc value | metadata mask value => rw [empty rfl, none_concat]; rfl
  | flowLabel value => rw [empty rfl, none_concat]; rfl
  | isFrag => rfl
  | stray value => exact absurd fits id
  | meq128 eq | meq32 eq | ihlMeq32 eq | range16 eq =>
    rcases slot_lt room rfl with used | used <;>
      simp [emitted, finishEq, Progress.emit, store, slots, place,
        IpfltriRuleEq.lane, used, Streams.concat, Streams.when, Streams.none, streams]

/-- The equations of the record are those before and the ones whose bits are set. -/
theorem has_emitted (fits : emission.Fits table) (room : q.ranOut emission = false)
    {e : Equation} (valid : table.valid e = true) :
    (emitted table q emission).has e =
      ((finishEq q).has e || decide (e ∈ emission.bits (slotOf q emission))) := by
  have either := table.valid_tosEq
  cases emission with
  | pureAck =>
    have ack : table.valid .isPureAck = true := fits
    have notTos : e ≠ .tosEq := by
      rintro rfl
      rw [valid, ack] at either
      cases either
    cases e with
    | tosEq => exact absurd rfl notTos
    | isPureAck => exact (Bool.or_true _).symm
    | _ => exact (Bool.or_false _).symm
  | tos value =>
    have tos : table.valid .tosEq = true := fits
    have notAck : e ≠ .isPureAck := by
      rintro rfl
      rw [valid, tos] at either
      cases either
    cases e with
    | isPureAck => exact absurd rfl notAck
    | tosEq => exact (Bool.or_true _).symm
    | _ => exact (Bool.or_false _).symm
  | protocol value | tc value | metadata mask value | flowLabel value | isFrag =>
    cases e
    all_goals first | exact (Bool.or_false _).symm | exact (Bool.or_true _).symm
  | stray value => exact absurd fits id
  | meq128 eq | meq32 eq | ihlMeq32 eq | range16 eq =>
    rcases slot_lt room rfl with used | used <;> cases e <;>
      simp [emitted, finishEq, IpfltriRuleEq.has, Progress.emit, store, bits,
        slots, used, slotOf, Slots.equation]

theorem Emission.Fits.bits_valid (fits : emission.Fits table) (i : Nat) :
    ∀ e ∈ emission.bits i, table.valid e = true := by
  have slot : ∀ slots : Slots, table.valid (slots.equation i) = true := by
    intro slots
    unfold Slots.equation
    cases slots <;> dsimp only <;> split <;> exact table.valid_others (by decide) (by decide)
  cases emission with
  | pureAck | tos value => exact forall_mem_singleton.mpr fits
  | stray value => exact absurd fits id
  | meq128 eq | meq32 eq | ihlMeq32 eq | range16 eq =>
    exact forall_mem_singleton.mpr (slot _)
  | protocol value | tc value | metadata mask value | flowLabel value | isFrag =>
    exact forall_mem_singleton.mpr (table.valid_others (by decide) (by decide))

/-- Setting the bits of supported equations adds these equations. -/
theorem EqTable.insertAll_bitmapOf {present after : Equation → Bool} {added : List Equation}
    (supported : ∀ e ∈ added, table.valid e = true)
    (grown : ∀ e, table.valid e = true → after e = (present e || decide (e ∈ added))) :
    FlagSet.insertAll (table.bitmapOf present) (added.map table.bit) = table.bitmapOf after := by
  apply BitVec.eq_of_getLsbD_eq
  intro j inside
  have zero : (0 : BitVec 16).getLsbD j = false := BitVec.getLsbD_zero
  unfold bitmapOf
  rw [Bool.eq_iff_iff]
  simp only [FlagSet.getLsbD_insertAll, Bool.or_eq_true, decide_eq_true_eq, mem_map,
    mem_filter, Bool.and_eq_true, zero, Bool.false_eq_true, false_or]
  constructor
  · rintro (⟨_, e, ⟨listed, valid, has⟩, rfl⟩ | ⟨_, e, member, rfl⟩)
    · exact ⟨inside, e, ⟨listed, valid, by rw [grown e valid, has]; rfl⟩, rfl⟩
    · have valid := supported e member
      refine ⟨inside, e, ⟨mem_equations e, valid, ?_⟩, rfl⟩
      rw [grown e valid, decide_eq_true member, Bool.or_true]
  · rintro ⟨_, e, ⟨listed, valid, has⟩, rfl⟩
    rw [grown e valid, Bool.or_eq_true, decide_eq_true_eq] at has
    rcases has with old | member
    · exact .inl ⟨inside, e, ⟨listed, valid, old⟩, rfl⟩
    · exact .inr ⟨inside, e, member, rfl⟩

end Emission

/-! ## Runs -/

/-- A translator that has written bytes and one that has filled a record have come the same
way, and have left the places from `bound` on empty. -/
structure Written (table : EqTable) (p : Progress Streams) (q : Progress IpfltriRuleEq)
    (bound : Nat) : Prop where
  enRule : p.enRule = q.enRule
  used : p.used = q.used
  tosDone : p.tosDone = q.tosDone
  bitmap : q.enRule = table.bitmapOf (finishEq q).has
  room : ∀ slots, q.used slots ≤ 2
  pureAck : table.valid .isPureAck = true → q.output.tosEq = 0
  bytes : p.output = (finishEq q).streams table
  empty : ∀ i, bound ≤ i → (finishEq q).lane table i = .none

theorem lane_zero (i : Nat) : IpfltriRuleEq.zero.lane table i = .none := by
  have tos : (table.valid .tosEq && IpfltriRuleEq.zero.tosEqPresent) = false :=
    Bool.and_false _
  have ack : (table.valid .isPureAck && IpfltriRuleEq.zero.tosEqPresent) = false :=
    Bool.and_false _
  rcases i with _ | _ | _ | _ | _ | _ | _ | _ | _ | _ | i
  · show Streams.concat _ = _
    rw [tos, ack]
    rfl
  all_goals rfl

theorem Written.start :
    Written table ⟨0, fun _ => 0, false, .none⟩ ⟨0, fun _ => 0, false, .zero⟩ 0 where
  enRule := rfl
  used := rfl
  tosDone := rfl
  bitmap := by
    have none : equations.filter (fun e => table.valid e && IpfltriRuleEq.zero.has e) = [] := by
      rw [filter_eq_nil_iff]
      intro e _
      cases e <;> exact ne_of_eq_of_ne (Bool.and_false _) Bool.false_ne_true
    have empty : table.bitmapOf IpfltriRuleEq.zero.has = 0 := by
      unfold EqTable.bitmapOf
      rw [none]
      rfl
    exact empty.symm
  room _ := Nat.zero_le 2
  pureAck _ := rfl
  bytes := by
    have lanes : (range places).map (IpfltriRuleEq.zero.lane table) = replicate places .none :=
      eq_replicate_iff.mpr ⟨rfl, fun lane listed => by
        obtain ⟨i, _, rfl⟩ := mem_map.mp listed
        exact lane_zero table i⟩
    show Streams.none = IpfltriRuleEq.zero.streams table
    rw [streams_eq_lanes, lanes]
    rfl
  empty i _ := lane_zero table i

theorem ready_le (emission : Emission) : emission.ready ≤ emission.place + 1 := by
  unfold Emission.ready
  split <;> omega

variable {q : Progress IpfltriRuleEq} {p : Progress Streams}

theorem Written.emit {table : EqTable}
    {bound : Nat} (written : Written table p q bound) {emission : Emission}
    (fits : emission.Fits table) (ready : bound ≤ emission.ready)
    (room : p.ranOut emission = false) :
    Written table (p.emit table writeStreams emission) (q.emit table store emission)
      (emission.place + 1) := by
  have sameRoom : q.ranOut emission = false := by
    rw [← room]
    unfold Progress.ranOut
    rw [written.used]
  have inside : emission.place < places := by
    cases emission <;> exact Nat.lt_of_sub_pos (Nat.succ_pos _)
  have empty : ∀ i, emission.ready ≤ i → (finishEq q).lane table i = .none :=
    fun i behind => written.empty i (ready.trans behind)
  have own := lane_own fits sameRoom fun single => empty _ (by simp [Emission.ready, single])
  constructor
  · unfold Progress.emit
    rw [written.used, written.enRule]
  · unfold Progress.emit
    rw [written.used]
  · exact written.tosDone
  · have grown := table.insertAll_bitmapOf (fits.bits_valid (slotOf q emission))
      fun e valid => has_emitted fits sameRoom valid
    rw [← written.bitmap] at grown
    exact grown
  · intro slots
    show (if emission.slots = some slots then q.used slots + 1 else q.used slots) ≤ 2
    by_cases taken : emission.slots = some slots
    · rw [if_pos taken]
      have free := slot_lt sameRoom taken
      omega
    · rw [if_neg taken]
      exact written.room slots
  · intro ack
    cases emission with
    | tos value =>
      have tos : table.valid .tosEq = true := fits
      rw [table.valid_tosEq, ack] at tos
      cases tos
    | pureAck => rfl
    | _ => exact written.pureAck ack
  · have grown := concat_lanes_grown inside (fun i other => lane_other emission other) own
      fun i behind => empty i ((ready_le emission).trans behind)
    rw [← streams_eq_lanes, ← streams_eq_lanes] at grown
    show Streams.concat [p.output, emission.streams] = _
    rw [written.bytes]
    exact grown.symm
  · intro i behind
    exact (lane_other emission (Nat.ne_of_gt behind)).trans
      (empty i ((ready_le emission).trans behind))

theorem Written.withTosDone {table : EqTable} {bound : Nat} (written : Written table p q bound) :
    Written table { p with tosDone := true } { q with tosDone := true } bound :=
  { written with
    tosDone := rfl }

/-- The emission of a step. -/
def Step.emission : Step → Option Emission
  | .emit emission | .emitTos emission => some emission
  | .require _ | .requireTos => none

/-- The emissions of steps, of which some may not be made. -/
def emissions (steps : List Step) : List Emission := steps.filterMap Step.emission

/-- The emissions come in the order of their places, from `bound` on. -/
structure InOrder (table : EqTable) (bound : Nat) (es : List Emission) : Prop where
  fits : ∀ e ∈ es, e.Fits table
  first : ∀ e ∈ es, bound ≤ e.ready
  next : es.Pairwise fun e f => e.place + 1 ≤ f.ready

theorem InOrder.tail {table : EqTable} {bound : Nat} {e : Emission} {es : List Emission}
    (ordered : InOrder table bound (e :: es)) : InOrder table bound es where
  fits f listed := ordered.fits f (mem_cons_of_mem _ listed)
  first f listed := ordered.first f (mem_cons_of_mem _ listed)
  next := (pairwise_cons.mp ordered.next).2

theorem InOrder.behind {table : EqTable} {bound : Nat} {e : Emission} {es : List Emission}
    (ordered : InOrder table bound (e :: es)) : InOrder table (e.place + 1) es where
  fits f listed := ordered.fits f (mem_cons_of_mem _ listed)
  first := (pairwise_cons.mp ordered.next).1
  next := (pairwise_cons.mp ordered.next).2

/-- Two translators in step fail together on steps in order, and otherwise stay in step. -/
theorem runSteps_inStep {σ τ : Type} {table : EqTable} {write : Nat → σ → Emission → σ}
    {write' : Nat → τ → Emission → τ} {InStep : Progress σ → Progress τ → Nat → Prop}
    (used : ∀ {p q bound}, InStep p q bound → p.used = q.used)
    (tosDone : ∀ {p q bound}, InStep p q bound → p.tosDone = q.tosDone)
    (done : ∀ {p q bound}, InStep p q bound →
      InStep { p with tosDone := true } { q with tosDone := true } bound)
    (emit : ∀ {p q bound emission}, InStep p q bound → emission.Fits table →
      bound ≤ emission.ready → p.ranOut emission = false →
        InStep (p.emit table write emission) (q.emit table write' emission) (emission.place + 1))
    {steps : List Step} {p : Progress σ} {q : Progress τ} {bound : Nat} (inStep : InStep p q bound)
    (ordered : InOrder table bound (emissions steps)) :
    (runSteps table write steps p = none ∧ runSteps table write' steps q = none) ∨
      ∃ p' q' last, runSteps table write steps p = some p' ∧
        runSteps table write' steps q = some q' ∧ InStep p' q' last := by
  induction steps generalizing p q bound with
  | nil => exact .inr ⟨p, q, bound, rfl, rfl, inStep⟩
  | cons step steps ih =>
    have sameRoom : ∀ emission, q.ranOut emission = p.ranOut emission := fun emission => by
      unfold Progress.ranOut
      rw [used inStep]
    unfold runSteps
    rw [foldlM_cons, foldlM_cons]
    cases step with
    | emit emission =>
      simp only [Step.run, sameRoom]
      cases room : p.ranOut emission with
      | true => exact .inl ⟨rfl, rfl⟩
      | false =>
        exact ih (emit inStep (ordered.fits _ mem_cons_self)
          (ordered.first _ mem_cons_self) room) ordered.behind
    | emitTos emission =>
      simp only [Step.run, sameRoom, ← tosDone inStep]
      by_cases skip : (p.tosDone || p.ranOut emission) = true
      · rw [if_pos skip, if_pos skip]
        exact ih inStep ordered.tail
      · rw [if_neg skip, if_neg skip]
        have room : p.ranOut emission = false := by
          rw [Bool.not_eq_true, Bool.or_eq_false_iff] at skip
          exact skip.2
        have emitted := emit inStep (ordered.fits _ mem_cons_self)
          (ordered.first _ mem_cons_self) room
        exact ih (done emitted) ordered.behind
    | require condition =>
      cases condition with
      | true => exact ih inStep ordered
      | false => exact .inl ⟨rfl, rfl⟩
    | requireTos =>
      simp only [Step.run, ← tosDone inStep]
      cases done : p.tosDone with
      | true => exact ih inStep ordered
      | false => exact .inl ⟨rfl, rfl⟩

/-- Steps in order fail for the bytes if and only if they fail for the record, and otherwise
the bytes are those of the record. -/
theorem Written.run {table : EqTable} {steps : List Step}
    {bound : Nat} (written : Written table p q bound)
    (ordered : InOrder table bound (emissions steps)) :
    (runSteps table writeStreams steps p = none ∧ runSteps table store steps q = none) ∨
      ∃ after record last, runSteps table writeStreams steps p = some after ∧
        runSteps table store steps q = some record ∧ Written table after record last :=
  @runSteps_inStep _ _ table writeStreams store (Written table) (fun both => both.used)
    (fun both => both.tosDone) (fun both => both.withTosDone)
    (fun both fits ready room => both.emit fits ready room) _ _ _ _ written ordered

/-- The record with its flow label cut to the bits that the equation has. -/
def IpfltriRuleEq.cut (a : IpfltriRuleEq) : IpfltriRuleEq :=
  { a with flEq := a.flEq &&& 0xFFFFF }

theorem streams_cut (a : IpfltriRuleEq) : a.cut.streams table = a.streams table := by
  have label : flStreams (a.flEq &&& 0xFFFFF) = flStreams a.flEq := by
    unfold flStreams
    rw [BitVec.and_assoc, BitVec.and_self]
  rw [streams_eq_lanes, streams_eq_lanes]
  congr 1
  apply map_congr_left
  intro i _
  rcases i with _ | _ | _ | _ | _ | _ | _ | _ | _ | _ | i
  case succ.succ.succ.succ.succ.succ.succ.succ.succ.zero =>
    show Streams.when a.flEqPresent (flStreams (a.flEq &&& 0xFFFFF)) = _
    rw [label]
    rfl
  all_goals rfl

theorem Written.wellFormed {table : EqTable} {bound : Nat} (written : Written table p q bound) :
    (finishEq q).cut.WellFormed table where
  meq128 := written.room .ofstMeq128
  meq32 := written.room .ofstMeq32
  ihlMeq32 := written.room .ihlOfstMeq32
  ihlRange16 := written.room .ihlOfstRng16
  bitmap := by
    exact written.bitmap
  flowLabel := by
    exact Nat.lt_of_le_of_lt Nat.and_le_right (by decide)
  pureAck := written.pureAck

/-! ## Blocks of steps -/

theorem emissions_append (first second : List Step) :
    emissions (first ++ second) = emissions first ++ emissions second :=
  filterMap_append

/-- Emissions in order from one place up to another. -/
structure Between (table : EqTable) (low high : Nat) (steps : List Step) : Prop where
  ordered : InOrder table low (emissions steps)
  last : ∀ e ∈ emissions steps, e.place + 1 ≤ high

theorem Between.append {table : EqTable} {low middle next high : Nat} {first second : List Step}
    (before : Between table low middle first) (behind : Between table next high second)
    (apart : middle ≤ next := by decide) (lowNext : low ≤ next := by decide)
    (middleHigh : middle ≤ high := by decide) : Between table low high (first ++ second) := by
  refine ⟨⟨?_, ?_, ?_⟩, ?_⟩ <;> rw [emissions_append]
  · intro e listed
    rcases mem_append.mp listed with early | late
    · exact before.ordered.fits e early
    · exact behind.ordered.fits e late
  · intro e listed
    rcases mem_append.mp listed with early | late
    · exact before.ordered.first e early
    · exact lowNext.trans (behind.ordered.first e late)
  · exact pairwise_append.mpr ⟨before.ordered.next, behind.ordered.next,
      fun e early f late =>
        (before.last e early).trans (apart.trans (behind.ordered.first f late))⟩
  · intro e listed
    rcases mem_append.mp listed with early | late
    · exact (before.last e early).trans middleHigh
    · exact behind.last e late

theorem Between.mono {table : EqTable} {low high lower higher : Nat} {steps : List Step}
    (between : Between table low high steps) (below : lower ≤ low) (above : high ≤ higher) :
    Between table lower higher steps :=
  ⟨⟨between.ordered.fits, fun e listed => below.trans (between.ordered.first e listed),
    between.ordered.next⟩, fun e listed => (between.last e listed).trans above⟩

theorem Between.nil (low high : Nat) : Between table low high [] :=
  ⟨⟨by rintro e ⟨⟩, by rintro e ⟨⟩, .nil⟩, by rintro e ⟨⟩⟩

theorem Between.when {table : EqTable} {low high : Nat} {steps : List Step} {present : Bool}
    (between : present = true → Between table low high steps) :
    Between table low high (stepsWhen present steps) := by
  cases present with
  | false => exact Between.nil table low high
  | true => exact between rfl

theorem Between.single {table : EqTable} {emission : Emission} (fits : emission.Fits table)
    {steps : List Step} (only : emissions steps = [emission]) :
    Between table emission.place (emission.place + 1) steps := by
  refine ⟨⟨?_, ?_, ?_⟩, ?_⟩ <;> rw [only]
  · exact forall_mem_singleton.mpr fits
  · refine forall_mem_singleton.mpr ?_
    unfold Emission.ready
    split <;> omega
  · exact pairwise_singleton _ _
  · exact forall_mem_singleton.mpr (Nat.le_refl _)

/-- The emissions of the steps all take a slot of one kind. -/
def Only (slots : Slots) (steps : List Step) : Prop :=
  ∀ e ∈ emissions steps, e.slots = some slots

theorem Only.append {first second : List Step} (before : Only slots first)
    (behind : Only slots second) : Only slots (first ++ second) := by
  intro e listed
  rw [emissions_append] at listed
  rcases mem_append.mp listed with early | late
  · exact before e early
  · exact behind e late

theorem Only.when {steps : List Step} (present : Bool) (only : Only slots steps) :
    Only slots (stepsWhen present steps) := by
  cases present with
  | false => rintro e ⟨⟩
  | true => exact only

theorem Only.emit {emission : Emission} {steps : List Step}
    (own : emission.slots = some slots) (only : Only slots steps) :
    Only slots (.emit emission :: steps) :=
  forall_mem_cons.mpr ⟨own, only⟩

theorem Only.emitTos {emission : Emission} {steps : List Step}
    (own : emission.slots = some slots) (only : Only slots steps) :
    Only slots (.emitTos emission :: steps) :=
  forall_mem_cons.mpr ⟨own, only⟩

theorem Only.require {steps : List Step} (condition : Bool)
    (only : Only slots steps) : Only slots (.require condition :: steps) :=
  only

theorem Only.nil (slots : Slots) : Only slots [] := by
  rintro e ⟨⟩

/-- The place of the equations that share slots. -/
def Slots.place : Slots → Nat
  | .ofstMeq128 => 3
  | .ofstMeq32 => 4
  | .ihlOfstMeq32 => 5
  | .ihlOfstRng16 => 7

theorem place_of_slots {emission : Emission}
    (own : emission.slots = some slots) : emission.place = slots.place := by
  cases emission <;> cases own <;> rfl

theorem Only.between {steps : List Step} (only : Only slots steps)
    (table : EqTable) : Between table (slots.place + 1) (slots.place + 1) steps := by
  have ready : ∀ e ∈ emissions steps, slots.place + 1 ≤ e.ready := by
    intro e listed
    unfold Emission.ready
    rw [only e listed, place_of_slots (only e listed)]
    exact Nat.le_refl _
  have last : ∀ e ∈ emissions steps, e.place + 1 ≤ slots.place + 1 := by
    intro e listed
    rw [place_of_slots (only e listed)]
  refine ⟨⟨?_, ready, ?_⟩, last⟩
  · intro e listed
    have own := only e listed
    cases e <;> cases own <;> trivial
  · rw [pairwise_iff_forall_sublist]
    intro e f both
    exact (last e (both.subset mem_cons_self)).trans
      (ready f (both.subset (mem_cons_of_mem _ mem_cons_self)))

end Sm8650.Fltrt
