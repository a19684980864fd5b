import Sm8650.MgmtReo.Core

/-!
# Management frame reordering: what the sections do to the lists

Marking entries changes no frame, so the frames of the ingress and egress lists change
only where an entry is inserted, moved or released. Each list operation has one lemma
that says so.
-/

namespace Sm8650.MgmtReo

open Data List

/-- The frames of a list. -/
def framesOf (list : List ListEntry) : List ReoParams :=
  list.map (·.rxParams)

@[simp]
theorem framesOf_nil : framesOf [] = [] :=
  rfl

@[simp]
theorem framesOf_cons (entry : ListEntry) (list : List ListEntry) :
    framesOf (entry :: list) = entry.rxParams :: framesOf list :=
  rfl

@[simp]
theorem framesOf_append (first second : List ListEntry) :
    framesOf (first ++ second) = framesOf first ++ framesOf second :=
  map_append

/-- Changing entries one by one changes no frame when no single change does. -/
theorem framesOf_map (change : ListEntry → ListEntry) (list : List ListEntry)
    (kept : ∀ entry, (change entry).rxParams = entry.rxParams) :
    framesOf (list.map change) = framesOf list := by
  rw [framesOf, map_map]
  exact map_congr_left fun entry _ => kept entry

/-- The time stamps of frames. -/
def stampsOf (frames : List ReoParams) : List (BitVec 32) :=
  frames.map (·.globalTimestamp)

@[simp]
theorem stampsOf_append (first second : List ReoParams) :
    stampsOf (first ++ second) = stampsOf first ++ stampsOf second :=
  map_append

@[simp]
theorem stampsOf_cons (frame : ReoParams) (frames : List ReoParams) :
    stampsOf (frame :: frames) = frame.globalTimestamp :: stampsOf frames :=
  rfl

theorem mem_stampsOf {frame : ReoParams} {frames : List ReoParams} (member : frame ∈ frames) :
    frame.globalTimestamp ∈ stampsOf frames :=
  mem_map_of_mem member

/-- The list is in the order of the time stamps. -/
def Sorted (frames : List ReoParams) : Prop :=
  (stampsOf frames).Pairwise Serial.InOrder

theorem Sorted.sublist {smaller larger : List ReoParams} (sorted : Sorted larger)
    (sublist : smaller.Sublist larger) : Sorted smaller :=
  List.Pairwise.sublist (sublist.map _) sorted

/-! ## Reordering marks -/

theorem framesOf_handleEgressOverflow (maxListSize : Nat) (list : List ListEntry) :
    framesOf (handleEgressOverflow maxListSize list) = framesOf list := by
  unfold handleEgressOverflow
  split
  · rw [framesOf_append, framesOf_map ListEntry.markEgressListOverflow _ fun _ => rfl,
      ← framesOf_append, take_append_drop]
  · rfl

/-- Marking entries for release leaves them ready. -/
theorem ready_handleEgressOverflow {maxListSize : Nat} {list : List ListEntry}
    (ready : ∀ entry ∈ list, isEntryReadyToSendUp entry = true) :
    ∀ entry ∈ handleEgressOverflow maxListSize list, isEntryReadyToSendUp entry = true := by
  unfold handleEgressOverflow
  split
  · intro entry member
    rcases mem_append.1 member with marked | unmarked
    · obtain ⟨original, _, rfl⟩ := mem_map.1 marked
      simp [isEntryReadyToSendUp, ListEntry.markEgressListOverflow]
    · exact ready entry (mem_of_mem_drop unmarked)
  · exact ready

theorem framesOf_ageoutEntries (config : Config) (curTs : BitVec 64) (list : List ListEntry) :
    framesOf (ageoutEntries config curTs list).1 = framesOf list := by
  induction list with
  | nil => rfl
  | cons entry list ih => rw [ageoutEntries, framesOf_cons, framesOf_cons, ih]

theorem framesOf_collectReady (overflow : Nat) (list : List ListEntry) :
    framesOf (collectReady overflow list).1 ++ framesOf (collectReady overflow list).2
      = framesOf list := by
  induction list generalizing overflow with
  | nil => rfl
  | cons entry list ih =>
    rw [collectReady]
    split
    · rw [framesOf_cons, ListEntry.rxParams_markWhile, cons_append, ih, framesOf_cons]
    · rw [framesOf_nil, nil_append, framesOf_cons, ListEntry.rxParams_markWhile, framesOf_cons]

theorem ready_collectReady (overflow : Nat) (list : List ListEntry) :
    ∀ entry ∈ (collectReady overflow list).1, isEntryReadyToSendUp entry = true := by
  induction list generalizing overflow with
  | nil =>
    intro entry member
    cases member
  | cons first list ih =>
    intro entry member
    rw [collectReady] at member
    split at member
    · rename_i firstReady
      rcases mem_cons.1 member with rfl | later
      · exact firstReady
      · exact ih _ entry later
    · cases member

/-! ## Sanity checks -/

theorem checkSanityList_of_sorted {list : List ListEntry} (sorted : Sorted (framesOf list)) :
    checkSanityList list = true := by
  induction list with
  | nil => rfl
  | cons first rest ih =>
    cases rest with
    | nil => rfl
    | cons next rest =>
      rw [checkSanityList, Bool.and_eq_true]
      refine ⟨rel_of_pairwise_cons sorted mem_cons_self, ?_⟩
      exact ih (sorted.sublist (sublist_cons_self _ _))

theorem checkSanityLists_of_sorted {egressList ingressList : List ListEntry}
    (sorted : Sorted (framesOf egressList ++ framesOf ingressList)) :
    checkSanityLists egressList ingressList = true := by
  have egressSane : checkSanityList egressList = true :=
    checkSanityList_of_sorted (sorted.sublist (sublist_append_left _ _))
  have ingressSane : checkSanityList ingressList = true :=
    checkSanityList_of_sorted (sorted.sublist (sublist_append_right _ _))
  rw [checkSanityLists, egressSane, ingressSane]
  rcases lastOf : egressList.getLast? with _ | last
  · rfl
  rcases firstOf : ingressList.head? with _ | first
  · rfl
  rw [Sorted, stampsOf_append, pairwise_append] at sorted
  exact sorted.2.2 _ (mem_stampsOf (mem_map_of_mem (mem_of_getLast? lastOf)))
    _ (mem_stampsOf (mem_map_of_mem (mem_of_mem_head? firstOf)))

end Sm8650.MgmtReo
