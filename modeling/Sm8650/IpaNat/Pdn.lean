import Sm8650.Transition.Reach
import Sm8650.IpaNat.Record

/-!
# The PDN table

The table of public addresses of `ipa_nat_drvi.c`. An allocation looks for the address and
for a free slot in one pass, so it finds the address only when no free slot comes before it.
-/

namespace Sm8650.IpaNat

open Function Finset

/-! ## The table -/

/-- `ipa_nat_pdn_entry`. -/
structure IpaNatPdnEntry where
  publicIp : BitVec 32
  srcMetadata : BitVec 32
  dstMetadata : BitVec 32
  deriving DecidableEq, Repr

/-- The zeroed entry. -/
def IpaNatPdnEntry.zero : IpaNatPdnEntry := ⟨0, 0, 0⟩

/-- The static data of the PDN functions. -/
structure PdnTable where
  pdns : Fin ipaMaxPdnNum → IpaNatPdnEntry
  numPdns : Nat

namespace PdnTable

/-- The static data after a table was added to fresh data, which makes its address the first
PDN. -/
def added (publicIpAddr : BitVec 32) : PdnTable where
  pdns := update (fun _ => .zero) 0 ⟨publicIpAddr, 0, 0⟩
  numPdns := 1

/-- `ipa_nati_modify_pdn` with what the ioctl returned. -/
def modifyPdn (table : PdnTable) (pdnIndex : Fin ipaMaxPdnNum) (entry : IpaNatPdnEntry)
    (ioctlOk : Bool) : Option PdnTable :=
  if ioctlOk then some { table with pdns := update table.pdns pdnIndex entry }
  else none

/-- The entries that an allocation looks at, all but the last one. -/
def searched : List (Fin ipaMaxPdnNum) := (List.finRange ipaMaxPdnNum).take (ipaMaxPdnNum - 1)

/-- The entry at which the search for an address ends: the first one with the address or
without any data. -/
def search (table : PdnTable) (publicIp : BitVec 32) : Option (Fin ipaMaxPdnNum) :=
  searched.find? fun i => (table.pdns i).publicIp = publicIp || table.pdns i = .zero

/-- `ipa_nati_alloc_pdn`: the index, if it succeeds, and the table. -/
def allocPdn (table : PdnTable) (pdnInfo : IpaNatPdnEntry) (ioctlOk : Bool) :
    Option (Fin ipaMaxPdnNum) × PdnTable :=
  if ipaMaxPdnNum - 1 ≤ table.numPdns then (none, table)
  else
    match table.search pdnInfo.publicIp with
    | none => (none, table)
    | some i =>
      if (table.pdns i).publicIp = pdnInfo.publicIp then (some i, table)
      else
        match table.modifyPdn i pdnInfo ioctlOk with
        | none => (none, table)
        | some modified => (some i, { modified with numPdns := table.numPdns + 1 })

/-- `ipa_nati_dealloc_pdn`; nothing when the index is not one of the array's. -/
def deallocPdn (table : PdnTable) (pdnIndex : BitVec 8) (ioctlOk : Bool) : Option PdnTable :=
  if table.numPdns = 0 then some table
  else if inside : pdnIndex.toNat < ipaMaxPdnNum then
    let i : Fin ipaMaxPdnNum := ⟨pdnIndex.toNat, inside⟩
    if table.pdns i = .zero then some table
    else
      match table.modifyPdn i .zero ioctlOk with
      | none => some table
      | some modified => some { modified with numPdns := table.numPdns - 1 }
  else none

end PdnTable

/-- A call of one of the two functions, with what the ioctl returns if it gets that far. -/
inductive PdnCall where
  | alloc (pdnInfo : IpaNatPdnEntry) (ioctlOk : Bool)
  | dealloc (pdnIndex : BitVec 8) (ioctlOk : Bool)

/-- What a call does to the table. -/
def PdnTable.call (table : PdnTable) : PdnCall → Option PdnTable
  | .alloc pdnInfo ioctlOk => some (table.allocPdn pdnInfo ioctlOk).2
  | .dealloc pdnIndex ioctlOk => table.deallocPdn pdnIndex ioctlOk

/-! ## The invariant -/

namespace PdnTable

/-- The entries that hold a PDN. -/
def used (table : PdnTable) : Finset (Fin ipaMaxPdnNum) :=
  univ.filter fun i => table.pdns i ≠ .zero

variable {table : PdnTable} {i : Fin ipaMaxPdnNum}

theorem mem_used : i ∈ table.used ↔ table.pdns i ≠ .zero := by
  simp [used]

/-- The counter counts the PDNs, and no address has two. -/
structure Sound (table : PdnTable) : Prop where
  counted : table.numPdns = table.used.card
  distinct : ∀ i ∈ table.used, ∀ j ∈ table.used,
    (table.pdns i).publicIp = (table.pdns j).publicIp → i = j

/-- The invariant of runs: beyond soundness, a PDN has an address and is where an allocation
looks for it. -/
structure Invariant (table : PdnTable) : Prop extends table.Sound where
  addressed : ∀ i ∈ table.used, (table.pdns i).publicIp ≠ 0
  searchable : ∀ i ∈ table.used, i ∈ searched

theorem used_update_of_ne_zero (table : PdnTable) (i : Fin ipaMaxPdnNum) (n : Nat)
    {entry : IpaNatPdnEntry} (data : entry ≠ .zero) :
    (PdnTable.mk (update table.pdns i entry) n).used = insert i table.used := by
  ext j
  rw [mem_insert, mem_used, mem_used]
  dsimp only
  by_cases same : j = i
  · rw [same, update_self]
    exact iff_of_true data (.inl rfl)
  · rw [update_of_ne same]
    exact (or_iff_right same).symm

theorem used_update_zero (table : PdnTable) (i : Fin ipaMaxPdnNum) (n : Nat) :
    (PdnTable.mk (update table.pdns i .zero) n).used = table.used.erase i := by
  ext j
  rw [mem_erase, mem_used, mem_used]
  dsimp only
  by_cases same : j = i
  · rw [same, update_self]
    exact iff_of_false (not_not_intro rfl) fun both => both.1 rfl
  · rw [update_of_ne same]
    exact (and_iff_right same).symm

theorem invariant_added {publicIpAddr : BitVec 32} (address : publicIpAddr ≠ 0) :
    (added publicIpAddr).Invariant := by
  have data : (⟨publicIpAddr, 0, 0⟩ : IpaNatPdnEntry) ≠ .zero := fun zero =>
    address (congrArg IpaNatPdnEntry.publicIp zero)
  have empty : (PdnTable.mk (fun _ => .zero) 0).used = ∅ := by
    ext i
    rw [mem_used]
    exact iff_of_false (not_not_intro rfl) (notMem_empty i)
  have one : (added publicIpAddr).used = {0} :=
    (used_update_of_ne_zero ⟨fun _ => .zero, 0⟩ 0 1 data).trans (by rw [empty]; rfl)
  refine ⟨⟨?_, fun i listed j listed' _ => ?_⟩, fun i listed => ?_, fun i listed => ?_⟩
  · rw [one]
    rfl
  all_goals rw [one, mem_singleton] at listed
  · rw [one, mem_singleton] at listed'
    rw [listed, listed']
  · rw [listed]
    exact address
  · rw [listed]
    decide

/-! ## Searching -/

/-- The search ends at the first entry that has the address or no data. -/
theorem search_eq_some {publicIp : BitVec 32} (found : table.search publicIp = some i) :
    i ∈ searched ∧ ((table.pdns i).publicIp = publicIp ∨ table.pdns i = .zero) ∧
      ∀ j ∈ searched, j < i → (table.pdns j).publicIp ≠ publicIp ∧ table.pdns j ≠ .zero := by
  obtain ⟨ends, before, behind, split, none⟩ := List.find?_eq_some_iff_append.mp found
  rw [Bool.or_eq_true, decide_eq_true_eq, decide_eq_true_eq] at ends
  refine ⟨split ▸ List.mem_append_right _ (List.mem_cons_self ..), ends,
    fun j listed earlier => ?_⟩
  have ordered : searched.Pairwise (· < ·) := (List.pairwise_lt_finRange _).take
  rw [split] at ordered listed
  have behind_lt : ∀ k ∈ behind, i < k :=
    (List.pairwise_cons.mp (List.pairwise_append.mp ordered).2.1).1
  have inBefore : j ∈ before := by
    rcases List.mem_append.mp listed with early | late
    · exact early
    · rcases List.mem_cons.mp late with rfl | later
      · exact absurd earlier (lt_irrefl _)
      · exact absurd earlier (lt_asymm (behind_lt j later))
  have neither := none j inBefore
  rw [Bool.not_eq_true', Bool.or_eq_false_iff, decide_eq_false_iff_not,
    decide_eq_false_iff_not] at neither
  exact neither

/-- An address is found when no free slot comes before it. -/
theorem search_present (invariant : table.Invariant) (present : i ∈ table.used)
    (packed : ∀ j < i, table.pdns j ≠ .zero) : table.search (table.pdns i).publicIp = some i := by
  cases found : table.search (table.pdns i).publicIp with
  | none =>
    have missed := List.find?_eq_none.mp found i (invariant.searchable i present)
    exact absurd (by rw [decide_eq_true rfl]; rfl) missed
  | some j =>
    obtain ⟨-, ends, earlier⟩ := search_eq_some found
    rcases lt_trichotomy j i with before | same | behind
    · rcases ends with same | free
      · exact congrArg some (invariant.distinct j (mem_used.mpr (packed j before)) i present same)
      · exact absurd free (packed j before)
    · exact congrArg some same
    · exact absurd rfl (earlier i (invariant.searchable i present) behind).1

/-! ## Calls -/

/-- Either an allocation leaves the table alone, or it fills the free slot that it found. -/
theorem allocPdn_cases (table : PdnTable) (pdnInfo : IpaNatPdnEntry) (ioctlOk : Bool) :
    (table.allocPdn pdnInfo ioctlOk).2 = table ∨
      ∃ i, table.search pdnInfo.publicIp = some i ∧ table.pdns i = .zero ∧
        (table.allocPdn pdnInfo ioctlOk).2 = ⟨update table.pdns i pdnInfo, table.numPdns + 1⟩ := by
  unfold allocPdn
  by_cases full : ipaMaxPdnNum - 1 ≤ table.numPdns
  · rw [if_pos full]
    exact .inl rfl
  · rw [if_neg full]
    cases found : table.search pdnInfo.publicIp with
    | none => exact .inl rfl
    | some i =>
      dsimp only
      by_cases same : (table.pdns i).publicIp = pdnInfo.publicIp
      · rw [if_pos same]
        exact .inl rfl
      · rw [if_neg same]
        have free := (search_eq_some found).2.1.resolve_left same
        cases ioctlOk with
        | false => exact .inl rfl
        | true => exact .inr ⟨i, rfl, free, rfl⟩

/-- Either a deallocation leaves the table alone, or it frees a slot in use. -/
theorem deallocPdn_cases {table target : PdnTable} {pdnIndex : BitVec 8} {ioctlOk : Bool}
    (done : table.deallocPdn pdnIndex ioctlOk = some target) :
    target = table ∨ ∃ i ∈ table.used, target = ⟨update table.pdns i .zero, table.numPdns - 1⟩ := by
  unfold deallocPdn at done
  by_cases none : table.numPdns = 0
  · rw [if_pos none] at done
    exact .inl (Option.some.inj done).symm
  · rw [if_neg none] at done
    by_cases inside : pdnIndex.toNat < ipaMaxPdnNum
    · rw [dif_pos inside] at done
      by_cases free : table.pdns ⟨pdnIndex.toNat, inside⟩ = .zero
      · rw [if_pos free] at done
        exact .inl (Option.some.inj done).symm
      · rw [if_neg free] at done
        cases ioctlOk with
        | false => exact .inl (Option.some.inj done).symm
        | true => exact .inr ⟨_, mem_used.mpr free, (Option.some.inj done).symm⟩
    · rw [dif_neg inside] at done
      cases done

/-- An address that the table has is asked for only while the table has a free slot by its
counter, and none before the address. -/
def Findable (table : PdnTable) (publicIp : BitVec 32) : Prop :=
  ∀ i ∈ table.used, (table.pdns i).publicIp = publicIp →
    table.numPdns < ipaMaxPdnNum - 1 ∧ ∀ j < i, table.pdns j ≠ .zero

/-- An allocation of an address that the table has returns its index and takes no slot. -/
def Answers (table : PdnTable) (pdnInfo : IpaNatPdnEntry) (ioctlOk : Bool) : Prop :=
  ∀ i ∈ table.used, (table.pdns i).publicIp = pdnInfo.publicIp →
    table.allocPdn pdnInfo ioctlOk = (some i, table)

theorem searched_of_lt {i j : Fin ipaMaxPdnNum} : i ∈ searched → j < i → j ∈ searched := by
  revert i j
  decide

theorem answers_iff (invariant : table.Invariant) (pdnInfo : IpaNatPdnEntry) (ioctlOk : Bool) :
    table.Answers pdnInfo ioctlOk ↔ table.Findable pdnInfo.publicIp := by
  constructor
  · intro answers i present same
    have answer := answers i present same
    unfold allocPdn at answer
    by_cases full : ipaMaxPdnNum - 1 ≤ table.numPdns
    · rw [if_pos full] at answer
      cases congrArg Prod.fst answer
    · refine ⟨Nat.lt_of_not_le full, fun j before free => ?_⟩
      rw [if_neg full] at answer
      cases found : table.search pdnInfo.publicIp with
      | none =>
        rw [found] at answer
        cases congrArg Prod.fst answer
      | some k =>
        -- the search ends at the free slot `j` or before it
        obtain ⟨-, ends, earlier⟩ := search_eq_some found
        rw [found] at answer
        dsimp only at answer
        have early : k ≤ j := by
          by_contra later
          have listed := searched_of_lt (invariant.searchable i present) before
          exact (earlier j listed (not_le.mp later)).2 free
        have other : k ≠ i := fun equal => absurd before (not_lt.mpr (equal ▸ early))
        by_cases match_ : (table.pdns k).publicIp = pdnInfo.publicIp
        · rw [if_pos match_] at answer
          exact other (Option.some.inj (congrArg Prod.fst answer))
        · rw [if_neg match_] at answer
          cases ioctlOk with
          | false => cases congrArg Prod.fst answer
          | true => exact other (Option.some.inj (congrArg Prod.fst answer))
  · intro findable i present same
    obtain ⟨space, packed⟩ := findable i present same
    unfold allocPdn
    rw [if_neg (Nat.not_le.mpr space), ← same, search_present invariant present packed]
    exact if_pos rfl

theorem invariant_allocPdn (invariant : table.Invariant) {pdnInfo : IpaNatPdnEntry}
    (address : pdnInfo.publicIp ≠ 0) (findable : table.Findable pdnInfo.publicIp) (ioctlOk : Bool) :
    (table.allocPdn pdnInfo ioctlOk).2.Invariant := by
  rcases table.allocPdn_cases pdnInfo ioctlOk with same | ⟨i, found, free, filled⟩
  · rw [same]
    exact invariant
  have data : pdnInfo ≠ .zero := fun zero => address (congrArg IpaNatPdnEntry.publicIp zero)
  have fresh : i ∉ table.used := fun listed => mem_used.mp listed free
  have absent : ∀ k ∈ table.used, (table.pdns k).publicIp ≠ pdnInfo.publicIp := by
    intro k present same
    have packed := (findable k present same).2
    have first := search_present invariant present packed
    rw [same, found] at first
    rw [Option.some.inj first] at fresh
    exact fresh present
  have used := used_update_of_ne_zero table i (table.numPdns + 1) data
  have new : (PdnTable.mk (update table.pdns i pdnInfo)
      (table.numPdns + 1)).pdns i = pdnInfo := update_self _ _ _
  have here : ∀ k ∈ table.used, (PdnTable.mk (update table.pdns i pdnInfo)
      (table.numPdns + 1)).pdns k = table.pdns k := fun k listed =>
    update_of_ne (fun same => fresh (by rwa [same] at listed)) _ _
  rw [filled]
  refine ⟨⟨?_, ?_⟩, ?_, ?_⟩
  · rw [used, card_insert_of_notMem fresh, invariant.counted]
  · rw [used]
    intro k listed l listed' same
    rcases mem_insert.mp listed with rfl | old <;>
      rcases mem_insert.mp listed' with rfl | old'
    · rfl
    · rw [new, here l old'] at same
      exact absurd same.symm (absent l old')
    · rw [here k old, new] at same
      exact absurd same (absent k old)
    · rw [here k old, here l old'] at same
      exact invariant.distinct k old l old' same
  · rw [used]
    intro k listed
    rcases mem_insert.mp listed with rfl | old
    · rw [new]
      exact address
    · rw [here k old]
      exact invariant.addressed k old
  · rw [used]
    intro k listed
    rcases mem_insert.mp listed with rfl | old
    · exact (search_eq_some found).1
    · exact invariant.searchable k old

theorem invariant_deallocPdn {table target : PdnTable} (invariant : table.Invariant)
    {pdnIndex : BitVec 8} {ioctlOk : Bool}
    (done : table.deallocPdn pdnIndex ioctlOk = some target) : target.Invariant := by
  rcases deallocPdn_cases done with rfl | ⟨i, present, rfl⟩
  · exact invariant
  have used := used_update_zero table i (table.numPdns - 1)
  have here : ∀ k ∈ table.used.erase i,
      (PdnTable.mk (update table.pdns i .zero) (table.numPdns - 1)).pdns k =
          table.pdns k ∧ k ∈ table.used :=
    fun k listed =>
      ⟨update_of_ne (mem_erase.mp listed).1 _ _, (mem_erase.mp listed).2⟩
  refine ⟨⟨?_, ?_⟩, ?_, ?_⟩
  · rw [used, card_erase_of_mem present, invariant.counted]
  · rw [used]
    intro k listed l listed' same
    rw [(here k listed).1, (here l listed').1] at same
    exact invariant.distinct k (here k listed).2 l (here l listed').2 same
  · rw [used]
    intro k listed
    rw [(here k listed).1]
    exact invariant.addressed k (here k listed).2
  · rw [used]
    exact fun k listed => invariant.searchable k (here k listed).2

end PdnTable

/-! ## Runs -/

open PdnTable Transition

/-- Calls that the functions are meant for, an allocation with an address and a deallocation
of an index of the array; and no allocation asks for an address that the search would miss. -/
def PdnCall.Served (table : PdnTable) : PdnCall → Prop
  | .alloc pdnInfo _ => pdnInfo.publicIp ≠ 0 ∧ table.Findable pdnInfo.publicIp
  | .dealloc pdnIndex _ => pdnIndex.toNat < ipaMaxPdnNum

/-- A call that is served. -/
def servedStep : LabelledStep PdnTable PdnCall := fun source call target =>
  call.Served source ∧ source.call call = some target

/-- As long as no address is asked for that the search would miss, the counter counts the
PDNs and no address has two; and an address that the table has is answered with its index
exactly when the search does not miss it. -/
theorem pdn_run {publicIpAddr : BitVec 32} (address : publicIpAddr ≠ 0) {table : PdnTable}
    (run : Reaches servedStep (added publicIpAddr) table) :
    table.Sound ∧
      ∀ pdnInfo ioctlOk, table.Answers pdnInfo ioctlOk ↔ table.Findable pdnInfo.publicIp := by
  have invariant : table.Invariant := by
    refine run.invariant (invariant_added address) fun source call target before step => ?_
    obtain ⟨served, done⟩ := step
    cases call with
    | alloc pdnInfo ioctlOk =>
      obtain rfl := Option.some.inj done
      exact invariant_allocPdn before served.1 served.2 ioctlOk
    | dealloc pdnIndex ioctlOk => exact invariant_deallocPdn before done
  exact ⟨invariant.toSound, answers_iff invariant⟩

theorem pdn_run_second :
    ((added 1).allocPdn ⟨2, 0, 0⟩ true).2.Sound ∧
      ∀ pdnInfo ioctlOk,
        ((added 1).allocPdn ⟨2, 0, 0⟩ true).2.Answers pdnInfo ioctlOk ↔
          ((added 1).allocPdn ⟨2, 0, 0⟩ true).2.Findable pdnInfo.publicIp :=
  @pdn_run 1 (by decide) _
    ((Reaches.refl servedStep (added 1)).tail
      (show servedStep (added 1) (.alloc ⟨2, 0, 0⟩ true) _ from
        ⟨⟨by decide, by unfold Findable; decide +kernel⟩, rfl⟩))

/-- With a hole before it an address gets a second slot. -/
theorem pdn_duplicate :
    ∃ table,
      [PdnCall.alloc ⟨2, 0, 0⟩ true, .alloc ⟨3, 0, 0⟩ true, .dealloc 1 true,
          .alloc ⟨3, 0, 0⟩ true].foldlM PdnTable.call (added 1) = some table ∧
        ¬ table.Sound := by
  refine ⟨_, rfl, fun sound => ?_⟩
  have twice := sound.distinct 1 (mem_used.mpr (by decide +kernel)) 2
  exact absurd twice (by decide)

end Sm8650.IpaNat
