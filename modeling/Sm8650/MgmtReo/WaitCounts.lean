import Mathlib.Algebra.BigOperators.Fin
import Mathlib.Algebra.Order.BigOperators.Group.Finset
import Mathlib.Data.List.TakeWhile
import Sm8650.MgmtReo.System

/-!
# Management frame reordering: wait counts

The total of a wait count is the sum over the links, an entry waits while its total is not
zero, and the counts of each link grow along the ingress list. An arrival lowers the counts of
older entries to its own, its own to the ones of the next entry, and those of its link in the
newer entries by the number of frames that have arrived.
-/

namespace Sm8650.MgmtReo

open List Function

/-! ## Totals -/

/-- The sum over the links. -/
def WaitCount.sum (waitCount : WaitCount) : Nat :=
  ∑ link, (waitCount.perLinkCount link).toNat

/-- The total is the sum over the links. -/
def WaitCount.Sums (waitCount : WaitCount) : Prop :=
  waitCount.totalCount.toNat = waitCount.sum

instance (waitCount : WaitCount) : Decidable waitCount.Sums :=
  inferInstanceAs (Decidable (_ = _))

/-- No link has a larger count. -/
def WaitCount.NotMore (first second : WaitCount) : Prop :=
  ∀ link, (first.perLinkCount link).toNat ≤ (second.perLinkCount link).toNat

theorem WaitCount.NotMore.sum_le {first second : WaitCount} (notMore : first.NotMore second) :
    first.sum ≤ second.sum :=
  Finset.sum_le_sum fun link _ => notMore link

theorem WaitCount.NotMore.total_le {first second : WaitCount} (notMore : first.NotMore second)
    (sums : first.Sums) (sums' : second.Sums) :
    first.totalCount.toNat ≤ second.totalCount.toNat := by
  rw [sums, sums']
  exact notMore.sum_le

theorem WaitCount.sum_lower (waitCount : WaitCount) (link : Link) (count : BitVec 32) :
    (waitCount.lower link count).sum + (waitCount.perLinkCount link).toNat =
      waitCount.sum + count.toNat := by
  have others : ∀ counts : Link → BitVec 32,
      ∑ other, (counts other).toNat =
        (counts link).toNat + ∑ other ∈ Finset.univ.erase link, (counts other).toNat :=
    fun counts => (Finset.add_sum_erase Finset.univ _ (Finset.mem_univ link)).symm
  have same : ∑ other ∈ Finset.univ.erase link,
        ((update waitCount.perLinkCount link count) other).toNat =
      ∑ other ∈ Finset.univ.erase link, (waitCount.perLinkCount other).toNat :=
    Finset.sum_congr rfl fun other listed => by
      rw [update_of_ne (Finset.ne_of_mem_erase listed)]
  unfold sum lower
  dsimp only
  rw [others, others waitCount.perLinkCount, update_self]
  omega

/-- Lowering the count of a link takes the difference off the total, which does not underflow. -/
theorem WaitCount.Sums.lower {waitCount : WaitCount} (sums : waitCount.Sums) {link : Link}
    {count : BitVec 32} (less : count.toNat ≤ (waitCount.perLinkCount link).toNat) :
    (waitCount.lower link count).Sums := by
  have change := waitCount.sum_lower link count
  have difference : ((waitCount.perLinkCount link - count).setWidth 64).toNat =
      (waitCount.perLinkCount link).toNat - count.toNat := by
    rw [BitVec.toNat_setWidth, BitVec.toNat_sub_of_le (BitVec.le_def.mpr less),
      Nat.mod_eq_of_lt (by omega)]
  unfold Sums at sums ⊢
  rw [WaitCount.lower, BitVec.toNat_sub_of_le (BitVec.le_def.mpr (by omega))]
  change _ = (waitCount.lower link count).sum
  omega

theorem WaitCount.perLinkCount_lower (waitCount : WaitCount) (link other : Link)
    (count : BitVec 32) :
    (waitCount.lower link count).perLinkCount other =
      if other = link then count else waitCount.perLinkCount other :=
  update_apply _ _ _ _

/-! ## Lowering to the counts of another frame -/

/-- One round of `updateWaitCount`. -/
def WaitCount.lowerTo (newFrame waitCount : WaitCount) (link : Link) : WaitCount :=
  if waitCount.perLinkCount link ≠ 0 then
    waitCount.lower link
      (if waitCount.perLinkCount link ≤ newFrame.perLinkCount link then
        waitCount.perLinkCount link
      else
        newFrame.perLinkCount link)
  else
    waitCount

theorem updateWaitCount_eq_foldl (oldFrame newFrame : WaitCount) :
    updateWaitCount oldFrame newFrame = (finRange maxMloLinks).foldl newFrame.lowerTo oldFrame := by
  unfold updateWaitCount
  rfl

theorem WaitCount.Sums.lowerTo {waitCount : WaitCount} (sums : waitCount.Sums)
    (newFrame : WaitCount) (link : Link) : (newFrame.lowerTo waitCount link).Sums := by
  unfold WaitCount.lowerTo
  split
  · refine sums.lower ?_
    split
    · exact Nat.le_refl _
    · rename_i more
      exact Nat.le_of_not_le fun less => more (BitVec.le_def.mpr less)
  · exact sums

theorem WaitCount.perLinkCount_lowerTo (newFrame waitCount : WaitCount) (link other : Link) :
    ((newFrame.lowerTo waitCount link).perLinkCount other).toNat =
      if other = link then
        min (waitCount.perLinkCount link).toNat (newFrame.perLinkCount link).toNat
      else (waitCount.perLinkCount other).toNat := by
  unfold WaitCount.lowerTo
  split
  · rw [perLinkCount_lower]
    by_cases same : other = link
    · rw [if_pos same]
      split
      · rename_i less
        exact (Nat.min_eq_left (BitVec.le_def.mp less)).symm
      · rename_i more
        exact (Nat.min_eq_right (Nat.le_of_not_le fun less => more (BitVec.le_def.mpr less))).symm
    · rw [if_neg same, if_neg same]
  · rename_i zero
    split
    · rename_i same
      rw [same, not_not.mp zero]
      exact (Nat.zero_min _).symm
    · rfl

theorem sums_updateWaitCount {oldFrame : WaitCount} (sums : oldFrame.Sums)
    (newFrame : WaitCount) : (updateWaitCount oldFrame newFrame).Sums := by
  rw [updateWaitCount_eq_foldl]
  generalize finRange maxMloLinks = links
  induction links generalizing oldFrame with
  | nil => exact sums
  | cons link links ih => exact ih (sums.lowerTo newFrame link)

/-- The counts of a link become the smaller of the two. -/
theorem perLinkCount_updateWaitCount (oldFrame newFrame : WaitCount) (link : Link) :
    ((updateWaitCount oldFrame newFrame).perLinkCount link).toNat =
      min (oldFrame.perLinkCount link).toNat (newFrame.perLinkCount link).toNat := by
  have fold : ∀ (links : List Link) (waitCount : WaitCount),
      ((links.foldl newFrame.lowerTo waitCount).perLinkCount link).toNat =
        if link ∈ links then
          min (waitCount.perLinkCount link).toNat (newFrame.perLinkCount link).toNat
        else (waitCount.perLinkCount link).toNat := by
    intro links
    induction links with
    | nil => exact fun waitCount => rfl
    | cons first links ih =>
      intro waitCount
      rw [foldl_cons, ih, WaitCount.perLinkCount_lowerTo]
      by_cases same : link = first
      · rw [if_pos same, if_pos (mem_cons.mpr (Or.inl same)), same]
        split
        · rw [Nat.min_assoc, Nat.min_self]
        · rfl
      · rw [if_neg same]
        exact if_congr (mem_cons.trans (or_iff_right same)).symm rfl rfl
  rw [updateWaitCount_eq_foldl, fold, if_pos (mem_finRange link)]

/-! ## Entries -/

/-- What the wait count of an entry has to do with its status. -/
structure ListEntry.Counted (entry : ListEntry) : Prop where
  sums : entry.waitCount.Sums
  waiting : entry.status.waitForFrameOnOtherLinks = true ↔ entry.waitCount.totalCount ≠ 0

variable {entry : ListEntry}

/-- An entry that waits for fewer frames waits until the total is zero. -/
theorem ListEntry.Counted.withWaitCount (counted : entry.Counted)
    {waitCount : WaitCount} (sums : waitCount.Sums) (notMore : waitCount.NotMore entry.waitCount) :
    (entry.withWaitCount waitCount).Counted where
  sums := sums
  waiting := by
    have less := notMore.total_le sums counted.sums
    have zero : ∀ count : BitVec 64, count ≠ 0 ↔ count.toNat ≠ 0 := fun count =>
      not_congr BitVec.toNat_inj.symm
    change (entry.status.waitForFrameOnOtherLinks && waitCount.totalCount != 0) = true ↔
      waitCount.totalCount ≠ 0
    rw [Bool.and_eq_true, bne_iff_ne, counted.waiting, zero, zero]
    omega

theorem counted_prepareListEntry {desc : FrameDescriptor} (sums : desc.waitCount.Sums) :
    (prepareListEntry desc).Counted where
  sums := sums
  waiting := bne_iff_ne

/-- An older entry takes over the counts of a newer frame where they are lower. -/
theorem counted_lowered (counted : entry.Counted) (newFrame : WaitCount) :
    (entry.withWaitCount (updateWaitCount entry.waitCount newFrame)).Counted :=
  counted.withWaitCount (sums_updateWaitCount counted.sums newFrame) fun link => by
    rw [perLinkCount_updateWaitCount]
    exact Nat.min_le_left _ _

theorem perLinkCount_reduceWaitCount (entry : ListEntry) (link other : Link) (delta : BitVec 16) :
    ((entry.reduceWaitCount link delta).waitCount.perLinkCount other).toNat =
      if other = link then (entry.waitCount.perLinkCount link).toNat - delta.toNat
      else (entry.waitCount.perLinkCount other).toNat := by
  have wide : (delta.setWidth 32).toNat = delta.toNat := by
    rw [BitVec.toNat_setWidth, Nat.mod_eq_of_lt (by omega)]
  unfold ListEntry.reduceWaitCount
  split
  · change ((entry.waitCount.lower link _).perLinkCount other).toNat = _
    rw [WaitCount.perLinkCount_lower]
    split
    · split
      · rename_i less
        rw [BitVec.toNat_sub_of_le less, wide]
      · rename_i more
        exact (Nat.sub_eq_zero_of_le (Nat.le_of_not_le more)).symm
    · rfl
  · rename_i zero
    split
    · rename_i same
      rw [same, not_not.mp zero]
      exact (Nat.zero_sub _).symm
    · rfl

theorem counted_reduceWaitCount (counted : entry.Counted) (link : Link)
    (delta : BitVec 16) : (entry.reduceWaitCount link delta).Counted := by
  have counts := fun other => perLinkCount_reduceWaitCount entry link other delta
  unfold ListEntry.reduceWaitCount at counts ⊢
  split
  · rename_i some
    simp only [if_pos some] at counts
    refine counted.withWaitCount ?_ fun other => ?_
    · have less := counts link
      rw [if_pos rfl] at less
      change ((entry.waitCount.lower link _).perLinkCount link).toNat = _ at less
      rw [WaitCount.perLinkCount_lower, if_pos rfl] at less
      exact counted.sums.lower (less ▸ Nat.sub_le _ _)
    · refine (counts other).trans_le ?_
      split
      · rename_i same
        rw [same]
        exact Nat.sub_le _ _
      · exact Nat.le_refl _
  · exact counted

/-! ## The ingress list -/

/-- The first entry waits for no more frames of a link than the second one. -/
def ListEntry.NotMore (first second : ListEntry) : Prop :=
  first.waitCount.NotMore second.waitCount

/-- Every total is a sum, every entry waits while its total is not zero, and the counts of each
link grow along the list. -/
structure Consistent (list : List ListEntry) : Prop where
  counted : ∀ entry ∈ list, entry.Counted
  ordered : list.Pairwise ListEntry.NotMore

theorem Consistent.nil : Consistent [] :=
  ⟨(fun _ listed => nomatch listed), List.Pairwise.nil⟩

theorem Consistent.sublist {list fewer : List ListEntry} (consistent : Consistent list)
    (sublist : fewer.Sublist list) : Consistent fewer :=
  ⟨fun entry listed => consistent.counted entry (sublist.subset listed),
    consistent.ordered.sublist sublist⟩

/-- The parts of an entry that waiting is about. -/
def waits (entry : ListEntry) : WaitCount × Bool :=
  (entry.waitCount, entry.status.waitForFrameOnOtherLinks)

theorem Consistent.of_waits_eq {list marked : List ListEntry} (consistent : Consistent list)
    (same : marked.map waits = list.map waits) : Consistent marked where
  counted := by
    intro entry listed
    have known : waits entry ∈ list.map waits := same ▸ mem_map_of_mem listed
    obtain ⟨original, listed, equal⟩ := mem_map.mp known
    obtain ⟨waitCount, waiting⟩ := Prod.mk.inj equal
    have counted := consistent.counted original listed
    exact ⟨waitCount ▸ counted.sums, waiting ▸ waitCount ▸ counted.waiting⟩
  ordered := by
    have ordered : (list.map waits).Pairwise fun first second => first.1.NotMore second.1 :=
      pairwise_map.mpr consistent.ordered
    rw [← same] at ordered
    exact (pairwise_map (f := waits)).mp ordered

/-- What the descriptor of a frame and its entry have to do with each other. -/
structure Described (desc : FrameDescriptor) (new : Option ListEntry) : Prop where
  sums : desc.waitCount.Sums
  own : desc.waitCount.perLinkCount desc.rxParams.linkId = 0
  entry : ∀ entry ∈ new, entry.Counted ∧ entry.waitCount = desc.waitCount

section Arrival

variable {list : List ListEntry} {desc : FrameDescriptor}

/-- The counts of the entry that is inserted before `later`. -/
theorem le_perLinkCount_ingressEntry_iff
    (same : entry.waitCount = desc.waitCount) (insertionTs : BitVec 64) (later : List ListEntry)
    (link : Link) (count : Nat) :
    count ≤ ((ingressEntry entry desc insertionTs later).waitCount.perLinkCount link).toNat ↔
      count ≤ (desc.waitCount.perLinkCount link).toNat ∧
        ∀ next ∈ later.head?, count ≤ (next.waitCount.perLinkCount link).toNat := by
  cases later with
  | nil =>
    change count ≤ (entry.waitCount.perLinkCount link).toNat ↔ _
    rw [same]
    exact (and_iff_left nofun).symm
  | cons next later =>
    change count ≤ ((updateWaitCount entry.waitCount next.waitCount).perLinkCount link).toNat ↔ _
    rw [perLinkCount_updateWaitCount, same, Nat.le_min]
    refine and_congr_right fun _ => ⟨fun less other head => ?_, fun all => all next rfl⟩
    exact Option.some.inj head ▸ less

theorem counted_ingressEntry (counted : entry.Counted)
    (insertionTs : BitVec 64) (later : List ListEntry) :
    (ingressEntry entry desc insertionTs later).Counted := by
  cases later with
  | nil => exact ⟨counted.sums, counted.waiting⟩
  | cons next later =>
    have lowered := counted_lowered counted next.waitCount
    exact ⟨lowered.sums, lowered.waiting⟩

variable {earlier later : List ListEntry}

/-- Lowering the entries before a place and reducing the ones behind it. -/
theorem Consistent.lower_reduce (consistent : Consistent (earlier ++ later))
    (own : desc.waitCount.perLinkCount desc.rxParams.linkId = 0) (delta : BitVec 16) :
    Consistent (earlier.map (fun cur =>
        cur.withWaitCount (updateWaitCount cur.waitCount desc.waitCount)) ++
      later.map fun cur => cur.reduceWaitCount desc.rxParams.linkId delta) where
  counted := by
    obtain ⟨counted, counted'⟩ := forall_mem_append.mp consistent.counted
    refine forall_mem_append.mpr ⟨forall_mem_map.mpr fun cur isCur => ?_,
      forall_mem_map.mpr fun cur isCur => ?_⟩
    · exact counted_lowered (counted cur isCur) _
    · exact counted_reduceWaitCount (counted' cur isCur) _ _
  ordered := by
    obtain ⟨ordered, ordered', across⟩ := pairwise_append.mp consistent.ordered
    refine pairwise_append.mpr ⟨pairwise_map.mpr (ordered.imp ?_),
      pairwise_map.mpr (ordered'.imp ?_), ?_⟩
    · intro first second notMore link
      change ((updateWaitCount _ _).perLinkCount link).toNat ≤
        ((updateWaitCount _ _).perLinkCount link).toNat
      rw [perLinkCount_updateWaitCount, perLinkCount_updateWaitCount]
      exact min_le_min_right _ (notMore link)
    · intro first second notMore link
      rw [perLinkCount_reduceWaitCount, perLinkCount_reduceWaitCount]
      split
      · exact Nat.sub_le_sub_right (notMore _) _
      · exact notMore link
    · refine forall_mem_map.mpr fun first isFirst => forall_mem_map.mpr ?_
      intro second isSecond link
      change ((updateWaitCount _ _).perLinkCount link).toNat ≤ _
      rw [perLinkCount_updateWaitCount, perLinkCount_reduceWaitCount]
      split
      · rename_i same
        rw [same, own]
        exact (Nat.min_le_right _ _).trans (Nat.zero_le _)
      · exact (Nat.min_le_left _ _).trans (across first isFirst second isSecond link)

/-- The new entry goes between the two parts. -/
theorem Consistent.insert (consistent : Consistent (earlier ++ later))
    (counted : entry.Counted) (same : entry.waitCount = desc.waitCount)
    (own : desc.waitCount.perLinkCount desc.rxParams.linkId = 0) (insertionTs : BitVec 64)
    (delta : BitVec 16) :
    Consistent (earlier.map (fun cur =>
        cur.withWaitCount (updateWaitCount cur.waitCount desc.waitCount)) ++
      ingressEntry entry desc insertionTs later ::
        later.map fun cur => cur.reduceWaitCount desc.rxParams.linkId delta) where
  counted := by
    obtain ⟨lowered, reduced⟩ :=
      forall_mem_append.mp (consistent.lower_reduce own delta).counted
    exact forall_mem_append.mpr
      ⟨lowered, forall_mem_cons.mpr ⟨counted_ingressEntry counted _ _, reduced⟩⟩
  ordered := by
    have bounds := le_perLinkCount_ingressEntry_iff same insertionTs later
    obtain ⟨_, ordered, across⟩ := pairwise_append.mp consistent.ordered
    obtain ⟨lowered, reduced, apart⟩ :=
      pairwise_append.mp (consistent.lower_reduce own delta).ordered
    refine pairwise_append.mpr ⟨lowered, pairwise_cons.mpr ⟨?_, reduced⟩, ?_⟩
    · refine forall_mem_map.mpr fun cur isCur link => ?_
      obtain ⟨lessOwn, lessNext⟩ := (bounds link _).mp (Nat.le_refl _)
      rw [perLinkCount_reduceWaitCount]
      split
      · rename_i isOwn
        rw [isOwn, own] at lessOwn
        rw [isOwn]
        exact lessOwn.trans (Nat.zero_le _)
      · obtain ⟨next, later, rfl⟩ := exists_cons_of_ne_nil (ne_nil_of_mem isCur)
        refine (lessNext next rfl).trans ?_
        obtain rfl | behind := mem_cons.mp isCur
        · exact Nat.le_refl _
        · exact rel_of_pairwise_cons ordered behind link
    · intro first isFirst second isSecond
      obtain rfl | behind := mem_cons.mp isSecond
      · intro link
        obtain ⟨cur, isCur, rfl⟩ := mem_map.mp isFirst
        change ((updateWaitCount _ _).perLinkCount link).toNat ≤ _
        rw [perLinkCount_updateWaitCount]
        refine (bounds link _).mpr ⟨Nat.min_le_right _ _, fun next head => ?_⟩
        exact (Nat.min_le_left _ _).trans (across cur isCur next (mem_of_mem_head? head) link)
      · exact apart first isFirst second behind

theorem updateIngressList_consistent {new : Option ListEntry} (consistent : Consistent list)
    (described : Described desc new) (insertionTs : BitVec 64) :
    Consistent (updateIngressList list desc new insertionTs).list := by
  have split : Consistent (list.takeWhile (notAfter desc.rxParams.globalTimestamp) ++
      list.dropWhile (notAfter desc.rxParams.globalTimestamp)) := by
    rw [takeWhile_append_dropWhile]
    exact consistent
  have kept := split.lower_reduce described.own (BitVec.ofInt 16 desc.pktCtrDelta)
  unfold updateIngressList
  dsimp only
  split
  · split
    · rename_i entry
      obtain ⟨counted, same⟩ := described.entry entry rfl
      split
      · exact split.insert counted same described.own insertionTs _
      · exact kept
    · exact kept
  · exact consistent

/-! ## The egress list -/

theorem waitCount_isStaleFrame (lastReleased : Option ReoParams) (desc : FrameDescriptor) :
    (isStaleFrame lastReleased desc).waitCount = desc.waitCount ∧
      (isStaleFrame lastReleased desc).rxParams = desc.rxParams := by
  unfold isStaleFrame
  split
  · split
    · split <;> exact ⟨rfl, rfl⟩
    · exact ⟨rfl, rfl⟩
  · exact ⟨rfl, rfl⟩

theorem Described.isStaleFrame {new : Option ListEntry} (described : Described desc new)
    (lastReleased : Option ReoParams) : Described (MgmtReo.isStaleFrame lastReleased desc) new := by
  obtain ⟨same, sameFrame⟩ := waitCount_isStaleFrame lastReleased desc
  refine ⟨same ▸ described.sums, ?_, fun entry isNew => ?_⟩
  · rw [same, sameFrame]
    exact described.own
  · rw [same]
    exact described.entry entry isNew

/-- The entry that goes before a newer one keeps the zero of its own link. -/
theorem insertIntoEgressList_described (config : Config) (described : Described desc (some entry)) :
    Described (insertIntoEgressList config list desc entry).desc
      (insertIntoEgressList config list desc entry).new := by
  obtain ⟨counted, same⟩ := described.entry entry rfl
  unfold insertIntoEgressList
  dsimp only
  split
  · exact described
  · rename_i next rest _
    have lowered := counted_lowered counted next.waitCount
    refine ⟨lowered.sums, ?_, fun inserted isNew => ?_⟩
    · apply BitVec.eq_of_toNat_eq
      change ((updateWaitCount _ _).perLinkCount _).toNat = _
      rw [perLinkCount_updateWaitCount, same, described.own]
      exact Nat.zero_min _
    · obtain rfl := Option.some.inj isNew
      exact ⟨⟨lowered.sums, lowered.waiting⟩, rfl⟩

theorem updateEgressList_described (config : Config) {new : Option ListEntry}
    (described : Described desc new) (lastReleased : Option ReoParams) :
    Described (updateEgressList config list lastReleased desc new).desc
      (updateEgressList config list lastReleased desc new).new := by
  have marked := described.isStaleFrame lastReleased
  unfold updateEgressList
  dsimp only
  split
  · split
    · exact marked
    · exact marked
  · split
    · split
      · exact marked
      · exact insertIntoEgressList_described config marked
    · exact marked

end Arrival

/-! ## Runs -/

/-- The wait count that a frame brings: the total is the sum, and the frame waits for no frame
of its own link. -/
structure Brings (desc : FrameDescriptor) : Prop where
  sums : desc.waitCount.Sums
  own : desc.waitCount.perLinkCount desc.rxParams.linkId = 0

variable {ctx : ReoContext} {config : Config}

theorem updateLists_consistent {desc : FrameDescriptor}
    {arrival : Arrival} (consistent : Consistent ctx.ingressList) (brings : Brings desc) :
    Consistent (updateLists config ctx desc arrival).ctx.ingressList := by
  unfold updateLists
  split
  · exact consistent
  · dsimp only
    generalize newOf : (if desc.type = .hostConsumedFrame ∧ desc.reoRequired = true then
      some (prepareListEntry desc) else none) = new
    have described : Described desc new := by
      refine ⟨brings.sums, brings.own, fun entry isNew => ?_⟩
      rw [← newOf] at isNew
      split at isNew
      · obtain rfl := Option.some.inj isNew
        exact ⟨counted_prepareListEntry brings.sums, rfl⟩
      · cases isNew
    have inEgress := @updateEgressList_described ctx.egressList desc config new described
      ctx.lastReleasedFrame
    split
    · split
      · split
        · exact updateIngressList_consistent consistent inEgress _
        · exact updateIngressList_consistent consistent inEgress _
      · exact consistent
    · exact consistent

theorem waits_collectReady (numOverflowFrames : Nat) (list : List ListEntry) :
    ((collectReady numOverflowFrames list).1 ++ (collectReady numOverflowFrames list).2).map waits =
      list.map waits := by
  have marked : ∀ (entry : ListEntry) (count : Nat),
      waits (entry.markWhile count) = waits entry := by
    intro entry count
    unfold ListEntry.markWhile
    split <;> rfl
  induction list generalizing numOverflowFrames with
  | nil => rfl
  | cons entry rest ih =>
    rw [collectReady]
    split
    · rw [cons_append, map_cons, map_cons, ih, marked]
    · rw [nil_append, map_cons, map_cons, marked]

/-- A move marks entries and takes a part of the list from its front. -/
theorem moveEntries_consistent (consistent : Consistent ctx.ingressList) :
    Consistent (moveEntriesIngressToEgressList config ctx).2.ingressList := by
  have all : Consistent ((readyEntries config ctx).1 ++ (readyEntries config ctx).2) :=
    consistent.of_waits_eq (waits_collectReady _ _)
  have rest := all.sublist (sublist_append_right _ _)
  unfold moveEntriesIngressToEgressList
  dsimp only
  split
  · exact all
  · split
    · exact rest
    · exact rest

theorem ageoutEntriesIngressList_consistent
    (curTs : BitVec 64) (consistent : Consistent ctx.ingressList) :
    Consistent (ageoutEntriesIngressList config curTs ctx).ingressList := by
  refine consistent.of_waits_eq ?_
  change ((ageoutEntries config curTs ctx.ingressList).1).map waits = _
  generalize ctx.ingressList = list
  induction list with
  | nil => rfl
  | cons entry rest ih =>
    rw [ageoutEntries, map_cons, ih]
    rfl

/-- A call on the lists. -/
inductive ListCall
  | updateLists (desc : FrameDescriptor) (arrival : Arrival)
  | moveEntries
  | ageoutEntries (curTs : BitVec 64)
  | releaseEntry

/-- What a call does to the lists. -/
def ListCall.run (config : Config) (ctx : ReoContext) : ListCall → ReoContext
  | .updateLists desc arrival => (MgmtReo.updateLists config ctx desc arrival).ctx
  | .moveEntries => (moveEntriesIngressToEgressList config ctx).2
  | .ageoutEntries curTs => ageoutEntriesIngressList config curTs ctx
  | .releaseEntry => (releaseEgressListEntry ctx).2.1

/-- Each frame brings the wait count of a frame. -/
def ListCall.Brings : ListCall → Prop
  | .updateLists desc _ => MgmtReo.Brings desc
  | _ => True

theorem ingressList_releaseEgressListEntry (ctx : ReoContext) :
    (releaseEgressListEntry ctx).2.1.ingressList = ctx.ingressList := by
  unfold releaseEgressListEntry
  split
  · rfl
  · split
    · split
      · rfl
      · split
        · rfl
        · split <;> rfl
    · rfl

theorem ListCall.run_consistent {call : ListCall}
    (consistent : Consistent ctx.ingressList) (brings : call.Brings) :
    Consistent (call.run config ctx).ingressList := by
  cases call with
  | updateLists desc arrival => exact updateLists_consistent consistent brings
  | moveEntries => exact moveEntries_consistent consistent
  | ageoutEntries curTs => exact ageoutEntriesIngressList_consistent curTs consistent
  | releaseEntry =>
    rw [run, ingressList_releaseEgressListEntry]
    exact consistent

/-- Every sequence of calls keeps the wait counts consistent. -/
theorem waitCounts_consistent (config : Config) {calls : List ListCall}
    (empty : ctx.ingressList = []) (brings : ∀ call ∈ calls, call.Brings) :
    Consistent (calls.foldl (ListCall.run config) ctx).ingressList := by
  have start : Consistent ctx.ingressList := empty ▸ Consistent.nil
  clear empty
  induction calls generalizing ctx with
  | nil => exact start
  | cons call rest ih =>
    obtain ⟨first, others⟩ := forall_mem_cons.mp brings
    exact ih others (ListCall.run_consistent start first)

/-! An example: a frame that waits for two frames of another link, one of which arrives. -/

/-- A frame of a link at a time. -/
def frameOn (link : Link) (ts : BitVec 32) : ReoParams :=
  { valid := true, linkId := link, mgmtPktCtr := 0, globalTimestamp := ts, durationUs := 1
    startTimestamp := ts, endTimestamp := ts }

/-- The frame arrives and waits for frames of one link. -/
def arrivalOf (frame : ReoParams) (awaited : Link) (count : BitVec 32) : ListCall :=
  .updateLists
    { type := .hostConsumedFrame, frameTypeMgt := true, rxParams := frame
      waitCount :=
        { perLinkCount := fun link => if link = awaited then count else 0
          totalCount := count.setWidth 64 }
      isStale := false, isParallelRx := false, queuedList := .invalid, pktCtrDelta := 1
      reoRequired := true, drop := false, dropReason := .invalid }
    { type := .hostConsumedFrame, frameTypeMgt := true, rxParams := frame, mloVdev := true
      waitCountResult := .failed, entryAvailable := true, insertionTs := 0
      releaseStatus := .success }

/-- No list has an entry. -/
def emptyContext : ReoContext :=
  { hostSnapshot := fun _ => { valid := false, mgmtPktCtr := 0, globalTimestamp := 0 }
    ingressList := [], egressList := [], lastReleasedFrame := none }

/-- No error handling and short lists. -/
def shortLists : Config :=
  { errorHandling := false, pktCtrDeltaThresh := 0, ingressMaxListSize := 4
    egressMaxListSize := 4, listEntryTimeoutUs := 1000 }

theorem waitCounts_consistent_twoFrames :
    Consistent ([arrivalOf (frameOn 0 20) 1 2, arrivalOf (frameOn 1 10) 0 0,
      .moveEntries].foldl (ListCall.run shortLists) emptyContext).ingressList :=
  waitCounts_consistent shortLists rfl (by
    intro call listed
    obtain rfl | listed := mem_cons.mp listed
    · exact ⟨by decide, by decide⟩
    obtain rfl | listed := mem_cons.mp listed
    · exact ⟨by decide, by decide⟩
    · obtain rfl := mem_singleton.mp listed
      trivial)

end Sm8650.MgmtReo
