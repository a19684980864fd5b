import Mathlib.Data.List.Nodup

/-!
# Trees of disjoint intervals

A tree of disjoint intervals is the list of its nodes in order. A loop may edit the node
it visits, which may leave several pieces of it or none; since the iterator moves on
before the edit, the loop edits each node that overlaps the range once, and no piece.
-/

namespace Sm8650.Data

open List

universe u v

/-- An interval of numbers, with both ends, and what it belongs to. -/
structure RangeNode (ι : Type u) where
  start : Nat
  last : Nat
  entry : ι
  deriving DecidableEq, Repr

variable {ι : Type u} {σ : Type v}

namespace RangeNode

def covers (node : RangeNode ι) (a : Nat) : Bool :=
  decide (node.start ≤ a) && decide (a ≤ node.last)

def overlaps (start last : Nat) (node : RangeNode ι) : Bool :=
  decide (node.start ≤ last) && decide (start ≤ node.last)

theorem covers_iff {node : RangeNode ι} {a : Nat} :
    node.covers a = true ↔ node.start ≤ a ∧ a ≤ node.last := by
  simp [covers]

theorem overlaps_iff {node : RangeNode ι} {start last : Nat} :
    node.overlaps start last = true ↔ node.start ≤ last ∧ start ≤ node.last := by
  simp [overlaps]

/-- One interval ends before another one begins. -/
def Before (first second : RangeNode ι) : Prop :=
  first.last < second.start

/-- What is left of an interval outside a range. -/
def outside (start last : Nat) (node : RangeNode ι) : List (RangeNode ι) :=
  (if node.start < start then [{ node with last := min node.last (start - 1) }] else [])
    ++ if last < node.last then [{ node with start := max node.start (last + 1) }] else []

end RangeNode

open RangeNode

/-- `interval_tree_insert` -/
def insertInterval (node : RangeNode ι) : List (RangeNode ι) → List (RangeNode ι)
  | [] => [node]
  | other :: tree =>
    if node.start < other.start then node :: other :: tree
    else other :: insertInterval node tree

/-- `interval_tree_iter_first` -/
def iterFirst (tree : List (RangeNode ι)) (start last : Nat) : Option (RangeNode ι) :=
  tree.find? (overlaps start last)

/-- `interval_tree_iter_next` -/
def iterNext [DecidableEq ι] (tree : List (RangeNode ι)) (node : RangeNode ι)
    (start last : Nat) : Option (RangeNode ι) :=
  (tree.dropWhile (· ≠ node)).tail.find? (overlaps start last)

/-- A loop over the nodes that overlap a range: the iterator moves on, then the node is
edited. It ends at the latest after `fuel` nodes. -/
def walk [DecidableEq ι] (start last : Nat)
    (edit : List (RangeNode ι) × σ → RangeNode ι → List (RangeNode ι) × σ) :
    Nat → List (RangeNode ι) × σ → Option (RangeNode ι) → List (RangeNode ι) × σ
  | 0, state, _ => state
  | _ + 1, state, none => state
  | fuel + 1, state, some node =>
    walk start last edit fuel (edit state node) (iterNext state.1 node start last)

/-- The nodes are proper intervals in order, so they are disjoint. -/
structure Ordered (tree : List (RangeNode ι)) : Prop where
  pairwise : tree.Pairwise Before
  proper : ∀ node ∈ tree, node.start ≤ node.last

/-- The entry whose interval has the number. -/
def entryAt (tree : List (RangeNode ι)) (a : Nat) : Option ι :=
  tree.findSome? fun node => if node.covers a then some node.entry else none

/-! ## Entries -/

@[simp]
theorem entryAt_nil (a : Nat) : entryAt ([] : List (RangeNode ι)) a = none := rfl

theorem entryAt_cons (node : RangeNode ι) (tree : List (RangeNode ι)) (a : Nat) :
    entryAt (node :: tree) a = if node.covers a then some node.entry else entryAt tree a := by
  by_cases covered : node.covers a = true
  · simp [entryAt, covered]
  · simp [entryAt, covered]

@[simp]
theorem entryAt_append (first second : List (RangeNode ι)) (a : Nat) :
    entryAt (first ++ second) a = (entryAt first a).or (entryAt second a) :=
  findSome?_append

namespace Ordered

variable {front back tree : List (RangeNode ι)} {node : RangeNode ι}

theorem nil : Ordered ([] : List (RangeNode ι)) :=
  ⟨List.Pairwise.nil, fun _ among => absurd among not_mem_nil⟩

theorem append_iff : Ordered (front ++ back)
    ↔ Ordered front ∧ Ordered back ∧ ∀ first ∈ front, ∀ second ∈ back, Before first second := by
  constructor
  · rintro ⟨pairwise, proper⟩
    obtain ⟨inFront, inBack, across⟩ := pairwise_append.mp pairwise
    exact ⟨⟨inFront, fun other among => proper other (mem_append_left _ among)⟩,
      ⟨inBack, fun other among => proper other (mem_append_right _ among)⟩, across⟩
  · rintro ⟨first, second, across⟩
    refine ⟨pairwise_append.mpr ⟨first.pairwise, second.pairwise, across⟩, ?_⟩
    intro other among
    rcases mem_append.mp among with inFront | inBack
    · exact first.proper other inFront
    · exact second.proper other inBack

theorem cons_iff : Ordered (node :: tree)
    ↔ node.start ≤ node.last ∧ Ordered tree ∧ ∀ other ∈ tree, Before node other := by
  constructor
  · rintro ⟨pairwise, proper⟩
    obtain ⟨across, rest⟩ := pairwise_cons.mp pairwise
    exact ⟨proper node mem_cons_self,
      ⟨rest, fun other among => proper other (mem_cons_of_mem node among)⟩, across⟩
  · rintro ⟨proper, rest, across⟩
    refine ⟨pairwise_cons.mpr ⟨across, rest.pairwise⟩, ?_⟩
    intro other among
    rcases mem_cons.mp among with rfl | deeper
    · exact proper
    · exact rest.proper other deeper

/-- At most one node has a number. -/
theorem eq_of_covers (ordered : Ordered tree) {first second : RangeNode ι} {a : Nat}
    (isFirst : first ∈ tree) (isSecond : second ∈ tree) (covered : first.covers a = true)
    (alsoCovered : second.covers a = true) : first = second := by
  rw [covers_iff] at covered alsoCovered
  induction tree with
  | nil => exact absurd isFirst not_mem_nil
  | cons node tree ih =>
    obtain ⟨_, rest, across⟩ := cons_iff.mp ordered
    unfold Before at across
    rcases mem_cons.mp isFirst with rfl | deeper
    · rcases mem_cons.mp isSecond with rfl | further
      · rfl
      · have apart := across second further
        omega
    · rcases mem_cons.mp isSecond with rfl | further
      · have apart := across first deeper
        omega
      · exact ih rest deeper further

theorem entryAt_eq_some_iff (ordered : Ordered tree) {a : Nat} {entry : ι} :
    entryAt tree a = some entry ↔ ∃ node ∈ tree, node.covers a = true ∧ node.entry = entry := by
  constructor
  · intro found
    obtain ⟨node, among, hit⟩ := exists_of_findSome?_eq_some found
    split_ifs at hit with covered
    exact ⟨node, among, covered, Option.some.inj hit⟩
  · rintro ⟨node, among, covered, rfl⟩
    cases found : entryAt tree a with
    | none =>
      have missed := findSome?_eq_none_iff.mp found node among
      rw [if_pos covered] at missed
      cases missed
    | some entry =>
      obtain ⟨other, isOther, hit⟩ := exists_of_findSome?_eq_some found
      split_ifs at hit with alsoCovered
      rw [ordered.eq_of_covers among isOther covered alsoCovered]
      exact hit.symm

end Ordered

/-! ## Insertion and removal -/

variable {tree : List (RangeNode ι)}

theorem mem_insertInterval {node other : RangeNode ι} :
    other ∈ insertInterval node tree ↔ other = node ∨ other ∈ tree := by
  induction tree with
  | nil => simp [insertInterval]
  | cons first tree ih =>
    unfold insertInterval
    split
    · exact mem_cons
    · rw [mem_cons, mem_cons]
      tauto

variable {node : RangeNode ι}

/-- A node goes between those that begin before it and those that begin behind it. -/
theorem insertInterval_append {front back : List (RangeNode ι)}
    (behind : ∀ other ∈ front, other.start ≤ node.start)
    (ahead : ∀ other ∈ back, node.start < other.start) :
    insertInterval node (front ++ back) = front ++ node :: back := by
  induction front with
  | nil =>
    cases back with
    | nil => rfl
    | cons other back =>
      have isAhead := ahead other mem_cons_self
      simp [insertInterval, isAhead]
  | cons other front ih =>
    have isBehind := behind other mem_cons_self
    rw [cons_append, insertInterval, if_neg (Nat.not_lt.mpr isBehind),
      ih fun further among => behind further (mem_cons_of_mem other among)]
    rfl

/-- An interval that overlaps no node can be inserted. -/
theorem Ordered.insertInterval (ordered : Ordered tree) (proper : node.start ≤ node.last)
    (free : ∀ other ∈ tree, other.overlaps node.start node.last = false) :
    Ordered (insertInterval node tree) := by
  induction tree with
  | nil => exact cons_iff.mpr ⟨proper, .nil, by simp⟩
  | cons other tree ih =>
    obtain ⟨properOther, rest, across⟩ := cons_iff.mp ordered
    have apart := free other mem_cons_self
    rw [← Bool.not_eq_true, overlaps_iff] at apart
    unfold Data.insertInterval
    split
    · next ahead =>
        have isBefore : Before node other := by
          unfold Before
          omega
        refine cons_iff.mpr ⟨proper, ordered, fun further among => ?_⟩
        rcases mem_cons.mp among with rfl | deeper
        · exact isBefore
        · have later := across further deeper
          unfold Before at isBefore later ⊢
          omega
    · next behind =>
        have isBefore : Before other node := by
          unfold Before
          omega
        refine cons_iff.mpr ⟨properOther, ih rest fun further among =>
          free further (mem_cons_of_mem other among), fun further among => ?_⟩
        rcases mem_insertInterval.mp among with rfl | deeper
        · exact isBefore
        · exact across further deeper

theorem entryAt_insertInterval (ordered : Ordered tree) (proper : node.start ≤ node.last)
    (free : ∀ other ∈ tree, other.overlaps node.start node.last = false) (a : Nat) :
    entryAt (insertInterval node tree) a
      = if node.covers a then some node.entry else entryAt tree a := by
  have after := ordered.insertInterval proper free
  by_cases covered : node.covers a = true
  · rw [if_pos covered]
    exact after.entryAt_eq_some_iff.mpr ⟨node, mem_insertInterval.mpr (.inl rfl), covered, rfl⟩
  · rw [if_neg covered]
    apply Option.ext
    intro entry
    rw [after.entryAt_eq_some_iff, ordered.entryAt_eq_some_iff]
    constructor
    · rintro ⟨other, among, alsoCovered, same⟩
      rcases mem_insertInterval.mp among with rfl | deeper
      · exact absurd alsoCovered covered
      · exact ⟨other, deeper, alsoCovered, same⟩
    · rintro ⟨other, among, alsoCovered, same⟩
      exact ⟨other, mem_insertInterval.mpr (.inr among), alsoCovered, same⟩

/-! ## What is left outside a range -/

/-- Pieces of a node that are in order and inside it. -/
structure PiecesOf (node : RangeNode ι) (pieces : List (RangeNode ι)) : Prop where
  ordered : Ordered pieces
  inside : ∀ piece ∈ pieces, node.start ≤ piece.start ∧ piece.last ≤ node.last

theorem piecesOf_nil (node : RangeNode ι) : PiecesOf node [] :=
  ⟨.nil, by simp⟩

theorem piecesOf_self (proper : node.start ≤ node.last) : PiecesOf node [node] :=
  ⟨Ordered.cons_iff.mpr ⟨proper, .nil, by simp⟩, by simp⟩

variable {start last : Nat}

theorem piecesOf_outside (proper : node.start ≤ node.last) (range : start ≤ last) :
    PiecesOf node (node.outside start last) := by
  unfold outside
  split_ifs
  · refine ⟨Ordered.cons_iff.mpr ⟨?_, Ordered.cons_iff.mpr ⟨?_, .nil, by simp⟩, ?_⟩, ?_⟩
    · dsimp only
      omega
    · dsimp only
      omega
    · intro other among
      rw [mem_singleton.mp among]
      show min node.last (start - 1) < max node.start (last + 1)
      omega
    · simp only [singleton_append, mem_cons, not_mem_nil, or_false, forall_eq_or_imp, forall_eq]
      omega
  · refine ⟨Ordered.cons_iff.mpr ⟨?_, .nil, by simp⟩, ?_⟩
    · dsimp only
      omega
    · simp only [append_nil, mem_singleton, forall_eq]
      omega
  · refine ⟨Ordered.cons_iff.mpr ⟨?_, .nil, by simp⟩, ?_⟩
    · dsimp only
      omega
    · simp only [nil_append, mem_singleton, forall_eq]
      omega
  · exact piecesOf_nil node

/-- Replacing a node by pieces of it keeps the order. -/
theorem Ordered.replace {front back pieces : List (RangeNode ι)}
    (ordered : Ordered (front ++ node :: back)) (parts : PiecesOf node pieces) :
    Ordered (front ++ (pieces ++ back)) := by
  obtain ⟨inFront, fromNode, across⟩ := append_iff.mp ordered
  obtain ⟨proper, inBack, behind⟩ := cons_iff.mp fromNode
  refine append_iff.mpr ⟨inFront, append_iff.mpr ⟨parts.ordered, inBack, ?_⟩, ?_⟩
  · intro piece isPiece other among
    have apart := behind other among
    have within := (parts.inside piece isPiece).2
    unfold Before at apart ⊢
    omega
  · intro first isFirst second among
    rcases mem_append.mp among with isPiece | further
    · have apart := across first isFirst node mem_cons_self
      have within := (parts.inside second isPiece).1
      unfold Before at apart ⊢
      omega
    · exact across first isFirst second (mem_cons_of_mem node further)

theorem Ordered.flatMap (ordered : Ordered tree) {pieces : RangeNode ι → List (RangeNode ι)}
    (parts : ∀ node ∈ tree, PiecesOf node (pieces node)) : Ordered (tree.flatMap pieces) := by
  induction tree with
  | nil => exact .nil
  | cons node tree ih =>
    obtain ⟨_, rest, behind⟩ := cons_iff.mp ordered
    have own := parts node mem_cons_self
    have others := fun other among => parts other (mem_cons_of_mem node among)
    refine append_iff.mpr ⟨own.ordered, ih rest others, ?_⟩
    intro piece isPiece later among
    obtain ⟨other, isOther, isLater⟩ := mem_flatMap.mp among
    have apart := behind other isOther
    have within := (own.inside piece isPiece).2
    have withinOther := ((others other isOther).inside later isLater).1
    unfold Before at apart ⊢
    omega

theorem entryAt_outside (range : start ≤ last) (a : Nat) : entryAt (node.outside start last) a
      = if start ≤ a ∧ a ≤ last then none
        else if node.covers a then some node.entry else none := by
  unfold outside
  rw [entryAt_append]
  by_cases isLeft : node.start < start <;> by_cases isRight : last < node.last <;>
    simp only [isLeft, isRight, if_true, if_false, entryAt_cons, covers_iff]
  all_goals split_ifs <;> first | rfl | omega

/-- The nodes without a range. -/
def carve (tree : List (RangeNode ι)) (start last : Nat) : List (RangeNode ι) :=
  tree.flatMap (outside start last)

theorem Ordered.carve (ordered : Ordered tree) (range : start ≤ last)
    : Ordered (carve tree start last) :=
  ordered.flatMap fun node among => piecesOf_outside (ordered.proper node among) range

theorem entryAt_carve (tree : List (RangeNode ι)) (range : start ≤ last) (a : Nat)
    : entryAt (carve tree start last) a
      = if start ≤ a ∧ a ≤ last then none else entryAt tree a := by
  induction tree with
  | nil => simp [carve]
  | cons node tree ih =>
    have split : Data.carve (node :: tree) start last
        = node.outside start last ++ Data.carve tree start last := flatMap_cons
    rw [split, entryAt_append, entryAt_outside range, ih, entryAt_cons]
    split_ifs <;> rfl

theorem overlaps_carve : ∀ piece ∈ carve tree start last, piece.overlaps start last = false := by
  intro piece among
  obtain ⟨node, isNode, isPiece⟩ := mem_flatMap.mp among
  rw [← Bool.not_eq_true, overlaps_iff]
  rcases mem_append.mp isPiece with left | right
  · split_ifs at left
    · rw [mem_singleton.mp left]
      dsimp only
      omega
    · exact absurd left not_mem_nil
  · split_ifs at right
    · rw [mem_singleton.mp right]
      dsimp only
      omega
    · exact absurd right not_mem_nil

/-- A node that does not overlap the range stays as it is. -/
theorem outside_of_not_overlaps (proper : node.start ≤ node.last) (range : start ≤ last)
    (apart : node.overlaps start last = false) : node.outside start last = [node] := by
  rw [← Bool.not_eq_true, overlaps_iff] at apart
  unfold outside
  by_cases isLeft : node.start < start
  · rw [if_pos isLeft, if_neg (by omega), Nat.min_eq_left (by omega)]
    rfl
  · rw [if_neg isLeft, if_pos (by omega), Nat.max_eq_left (by omega)]
    rfl

/-! ## The loop -/

theorem find?_eq_none_or_split (tree : List (RangeNode ι)) (start last : Nat) :
    (tree.find? (overlaps start last) = none ∧ ∀ node ∈ tree, node.overlaps start last = false)
      ∨ ∃ skipped node rest, tree = skipped ++ node :: rest
        ∧ tree.find? (overlaps start last) = some node ∧ node.overlaps start last = true
        ∧ ∀ other ∈ skipped, other.overlaps start last = false := by
  cases found : tree.find? (overlaps start last) with
  | none =>
    refine .inl ⟨rfl, fun node among => ?_⟩
    rw [← Bool.not_eq_true]
    exact find?_eq_none.mp found node among
  | some node =>
    obtain ⟨hit, skipped, rest, split, missed⟩ := find?_eq_some_iff_append.mp found
    refine .inr ⟨skipped, node, rest, split, rfl, hit, fun other among => ?_⟩
    have miss := missed other among
    rwa [Bool.not_eq_true'] at miss

/-- The nodes that do not overlap the range stay. -/
theorem flatMap_eq_self {pieces : RangeNode ι → List (RangeNode ι)}
    (apart : ∀ node ∈ tree, node.overlaps start last = false) :
    (tree.flatMap fun node => if node.overlaps start last then pieces node else [node]) = tree := by
  induction tree with
  | nil => rfl
  | cons node tree ih =>
    have stays := apart node mem_cons_self
    rw [flatMap_cons, stays, ih fun other among => apart other (mem_cons_of_mem node among)]
    rfl

section Walk

variable [DecidableEq ι] {start last : Nat}
  {edit : List (RangeNode ι) × σ → RangeNode ι → List (RangeNode ι) × σ}
  {pieces : RangeNode ι → List (RangeNode ι)} {effect : σ → RangeNode ι → σ}

/-- What an edit does to a node that overlaps the range. -/
def Edits (start last : Nat) (edit : List (RangeNode ι) × σ → RangeNode ι → List (RangeNode ι) × σ)
    (pieces : RangeNode ι → List (RangeNode ι)) (effect : σ → RangeNode ι → σ) : Prop :=
  ∀ front back node state, Ordered (front ++ node :: back) → node.overlaps start last = true →
    edit (front ++ node :: back, state) node = (front ++ (pieces node ++ back), effect state node)
      ∧ PiecesOf node (pieces node)

/-- The iterator goes on behind the node. -/
theorem iterNext_split {front back : List (RangeNode ι)} {node : RangeNode ι}
    (ordered : Ordered (front ++ node :: back)) :
    iterNext (front ++ node :: back) node start last = back.find? (overlaps start last) := by
  have fresh : ∀ other ∈ front, decide (other ≠ node) = true := by
    intro other among
    have apart := (Ordered.append_iff.mp ordered).2.2 other among node mem_cons_self
    have proper := (Ordered.append_iff.mp ordered).1.proper other among
    rw [decide_eq_true_eq]
    rintro rfl
    unfold Before at apart
    omega
  unfold iterNext
  rw [dropWhile_append_of_pos fresh, dropWhile_cons_of_neg (by simp), tail_cons]

/-- The loop edits every node of the rest of the tree that overlaps the range. -/
theorem walk_eq (edits : Edits start last edit pieces effect) {fuel : Nat}
    {front rest : List (RangeNode ι)} (state : σ) (ordered : Ordered (front ++ rest))
    (enough : rest.length ≤ fuel) :
    walk start last edit fuel (front ++ rest, state) (rest.find? (overlaps start last))
      = (front ++ rest.flatMap fun node =>
          if node.overlaps start last then pieces node else [node],
        (rest.filter (overlaps start last)).foldl effect state) := by
  induction fuel generalizing front rest state with
  | zero =>
    obtain rfl := eq_nil_of_length_eq_zero (Nat.le_zero.mp enough)
    rfl
  | succ fuel ih =>
    rcases find?_eq_none_or_split rest start last with
      ⟨none, apart⟩ | ⟨skipped, node, back, rfl, found, hit, apart⟩
    · have unvisited : rest.filter (overlaps start last) = [] :=
        filter_eq_nil_iff.mpr fun node among => by simp [apart node among]
      rw [none, flatMap_eq_self apart, unvisited]
      rfl
    · rw [← append_assoc] at ordered
      obtain ⟨edited, parts⟩ := edits (front ++ skipped) back node state ordered hit
      have further := ordered.replace parts
      have unvisited : skipped.filter (overlaps start last) = [] :=
        filter_eq_nil_iff.mpr fun other among => by simp [apart other among]
      have shorter : back.length ≤ fuel := by
        simp only [length_append, length_cons] at enough
        omega
      rw [← append_assoc] at further
      have rest := ih (effect state node) further shorter
      rw [found, walk, ← append_assoc, edited, iterNext_split ordered,
        ← append_assoc, rest, flatMap_append, flatMap_eq_self apart,
        flatMap_cons, if_pos hit, filter_append, unvisited,
        filter_cons_of_pos hit]
      simp

end Walk

end Sm8650.Data
