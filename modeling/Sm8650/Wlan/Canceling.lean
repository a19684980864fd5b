import Sm8650.Wlan.Removing

/-!
# What a cancelation takes

The loop of a cancelation goes through its list, leaves the commands behind that are not
asked for and takes the others out one at a time. At its end exactly the commands that are
not asked for are left in the list, and the other lists are as they were.
-/

namespace Sm8650.Wlan

open Transition PdevQueue List

/-- The node behind the last one that was left. -/
theorem nextNode_append {visited rest : List Nat} (nodup : (visited ++ rest).Nodup) :
    nextNode (visited ++ rest) visited.getLast? = rest.head? := by
  cases eq_nil_or_concat visited with
  | inl isNil => rw [isNil]; rfl
  | inr isConcat =>
    obtain ⟨init, last, rfl⟩ := isConcat
    rw [concat_eq_append] at nodup ⊢
    have apart : ∀ other ∈ init, decide (other ≠ last) = true := by
      intro other member
      rw [append_assoc, nodup_append] at nodup
      have inRest : last ∈ [last] ++ rest := mem_append_left _ (mem_singleton_self last)
      exact decide_eq_true (nodup.2.2 other member last inRest)
    rw [getLast?_concat]
    unfold nextNode
    dsimp only
    rw [append_assoc, dropWhile_append_of_pos apart, singleton_append,
      dropWhile_cons_of_neg (by simp), tail_cons]

/-- A cancelation names what it asks for. -/
def CancelRequest.Named (request : CancelRequest) : Prop :=
  request.pdev = true ∨ request.vdev.isSome = true ∨ request.cmd.isSome = true

instance (request : CancelRequest) : Decidable request.Named :=
  inferInstanceAs (Decidable (_ ∨ _ ∨ _))

/-- A single command is asked for. -/
def CancelRequest.Single (request : CancelRequest) : Prop :=
  request.vdev = none ∧ request.pdev = false

namespace PdevQueue

variable {queue start : PdevQueue} {config : SerConfig} {request : CancelRequest}
  {cmd : Command} {node : Nat} {pnode : Option Nat} {qsize : Nat}

/-- The commands are left that were not asked for. -/
structure Swept (start : PdevQueue) (request : CancelRequest) (queue : PdevQueue) : Prop where
  member : ∀ node, node ∈ queue.ledger.nodes request.isActiveQueue ↔
    node ∈ start.ledger.nodes request.isActiveQueue ∧ request.selects (start.cmd node) = false
  cmd : ∀ list, ∀ node ∈ queue.ledger.nodes list, queue.cmd node = start.cmd node
  others : queue.ledger.nodes (!request.isActiveQueue) = start.ledger.nodes !request.isActiveQueue

/-- The loop has come to `pnode`: the commands up to there are not asked for, and of the
others only such were taken that are. -/
structure Sweeps (start : PdevQueue) (request : CancelRequest) (queue : PdevQueue)
    (pnode : Option Nat) (qsize : Nat) : Prop where
  walk : ∃ visited rest, queue.ledger.nodes request.isActiveQueue = visited ++ rest
    ∧ pnode = visited.getLast? ∧ (∀ node ∈ visited, request.selects (queue.cmd node) = false)
    ∧ rest.length ≤ qsize
  kept : ∀ node ∈ start.ledger.nodes request.isActiveQueue,
    request.selects (start.cmd node) = false → node ∈ queue.ledger.nodes request.isActiveQueue
  within : ∀ node ∈ queue.ledger.nodes request.isActiveQueue,
    node ∈ start.ledger.nodes request.isActiveQueue
  cmd : ∀ list, ∀ node ∈ queue.ledger.nodes list, queue.cmd node = start.cmd node
  others : queue.ledger.nodes (!request.isActiveQueue) = start.ledger.nodes !request.isActiveQueue

theorem sweeps_start (queue : PdevQueue) (request : CancelRequest) :
    Sweeps queue request queue none (queue.pdevList request.isActiveQueue).nodes.length where
  walk := ⟨[], _, rfl, rfl, (fun _ nothing => nomatch nothing),
    (congrArg length (pdevList_nodes queue request.isActiveQueue)).ge⟩
  kept := fun _ member _ => member
  within := fun _ member => member
  cmd := fun _ _ _ => rfl
  others := rfl

/-- Where the whole list was looked at, only commands are left that are not asked for. -/
theorem Sweeps.swept (sweeps : Sweeps start request queue pnode qsize)
    (unselected : ∀ node ∈ queue.ledger.nodes request.isActiveQueue,
      request.selects (queue.cmd node) = false) : Swept start request queue where
  member := fun node => by
    constructor
    · intro member
      refine ⟨sweeps.within node member, ?_⟩
      rw [← sweeps.cmd _ node member]
      exact unselected node member
    · rintro ⟨member, isKept⟩
      exact sweeps.kept node member isKept
  cmd := sweeps.cmd
  others := sweeps.others

variable {next : PdevQueue}

/-- The lists and the commands are all that counts. -/
theorem Sweeps.congr (sweeps : Sweeps start request queue pnode qsize)
    (nodes : next.ledger.nodes = queue.ledger.nodes) (cmd : next.cmd = queue.cmd) :
    Sweeps start request next pnode qsize where
  walk := by
    rw [nodes, cmd]
    exact sweeps.walk
  kept := by
    rw [nodes]
    exact sweeps.kept
  within := by
    rw [nodes]
    exact sweeps.within
  cmd := by
    rw [nodes, cmd]
    exact sweeps.cmd
  others := by
    rw [nodes]
    exact sweeps.others

theorem Swept.congr (swept : Swept start request queue)
    (nodes : next.ledger.nodes = queue.ledger.nodes) (cmd : next.cmd = queue.cmd) :
    Swept start request next where
  member := by
    rw [nodes]
    exact swept.member
  cmd := by
    rw [nodes, cmd]
    exact swept.cmd
  others := by
    rw [nodes]
    exact swept.others

/-- A named cancelation finds the psoc where it finds a command. -/
theorem hasPsoc_of_selects (named : request.Named) (selects : request.selects cmd = true)
    {vdev : Nat} (ofVdev : cmd.vdev = some vdev) : request.hasPsoc = true := by
  unfold CancelRequest.hasPsoc
  rcases named with isPdev | isVdev | isCmd
  · rw [isPdev, Bool.true_or, Bool.true_or]
  · rw [isVdev, Bool.or_true, Bool.true_or]
  · obtain ⟨asked, isAsked⟩ := Option.isSome_iff_exists.mp isCmd
    have isMatch : cmd.matches asked = true := by
      unfold CancelRequest.selects at selects
      rw [isAsked, Bool.and_eq_true, Bool.and_eq_true, Bool.and_eq_true] at selects
      exact selects.1.1.1
    have askedVdev : asked.vdev = some vdev := (Command.vdev_of_matches isMatch).symm.trans ofVdev
    rw [isAsked]
    dsimp only
    rw [askedVdev, Option.isSome_some, Bool.or_true]

section

variable (exact : queue.books.Exact config none none)

include exact

/-- A cancelation of a single command asks for at most one command of a list. -/
theorem selects_single (named : request.Named) (single : request.Single) {first second : Nat}
    (memberFirst : first ∈ queue.ledger.nodes request.isActiveQueue)
    (memberSecond : second ∈ queue.ledger.nodes request.isActiveQueue)
    (selectsFirst : request.selects (queue.cmd first) = true)
    (selectsSecond : request.selects (queue.cmd second) = true) : first = second := by
  have isCmd : request.cmd.isSome = true := by
    rcases named with isPdev | isVdev | isCmd
    · exact absurd (single.2.symm.trans isPdev) Bool.false_ne_true
    · rw [single.1] at isVdev
      cases isVdev
    · exact isCmd
  obtain ⟨asked, isAsked⟩ := Option.isSome_iff_exists.mp isCmd
  have matchesAsked : ∀ {queued : Command}, request.selects queued = true →
      queued.matches asked = true := by
    intro queued selects
    unfold CancelRequest.selects at selects
    rw [isAsked, Bool.and_eq_true, Bool.and_eq_true, Bool.and_eq_true] at selects
    exact selects.1.1.1
  have askedFirst := of_decide_eq_true (matchesAsked selectsFirst)
  have askedSecond := of_decide_eq_true (matchesAsked selectsSecond)
  cases isActive : request.isActiveQueue with
  | true =>
    rw [isActive] at memberFirst memberSecond
    exact exact.active_inj memberFirst memberSecond (askedFirst.2.2.trans askedSecond.2.2.symm)
  | false =>
    rw [isActive] at memberFirst memberSecond
    by_contra differ
    have : Std.Symm fun first second =>
        (queue.books.ledger.cmd first).matches (queue.books.ledger.cmd second) = false :=
      ⟨fun first second differ => (Command.matches_comm _ _).trans differ⟩
    have isMatch : (queue.cmd first).matches (queue.cmd second) = true :=
      decide_eq_true ⟨askedFirst.1.trans askedSecond.1.symm,
        askedFirst.2.1.trans askedSecond.2.1.symm, askedFirst.2.2.trans askedSecond.2.2.symm⟩
    exact Bool.false_ne_true ((exact.keys.forall memberFirst memberSecond differ).symm.trans isMatch)

/-- The lists after a command was canceled. -/
theorem lists_canceled {active : Bool} (member : node ∈ queue.ledger.nodes active) {vdev : Nat}
    (books : next.books = canceled queue.books node vdev active) :
    (∀ list, next.ledger.nodes list = if list = active then (queue.ledger.nodes list).erase node
        else queue.ledger.nodes list)
      ∧ (∀ list, node ∉ next.ledger.nodes list)
      ∧ ∀ other, other ≠ node → next.cmd other = queue.cmd other := by
  have isNext : next.ledger = (canceled queue.books node vdev active).ledger :=
    congrArg Books.ledger books
  have nextNodes : ∀ list, next.ledger.nodes list
      = if list = active then (queue.ledger.nodes list).erase node
        else queue.ledger.nodes list := by
    intro list
    rw [isNext]
    exact Books.take_nodes ..
  refine ⟨nextNodes, fun list => ?_, fun other differs => ?_⟩
  · rw [nextNodes]
    split
    next => exact (exact.nodup_nodes list).not_mem_erase
    next differs =>
      intro inOther
      have once := exact.sound.apart node
      have both : 0 < queue.ledger.active.count node ∧ 0 < queue.ledger.pending.count node := by
        cases list <;> cases active
        · exact absurd rfl differs
        · exact ⟨count_pos_iff.mpr member, count_pos_iff.mpr inOther⟩
        · exact ⟨count_pos_iff.mpr inOther, count_pos_iff.mpr member⟩
        · exact absurd rfl differs
      change queue.ledger.active.count node + queue.ledger.pending.count node + _ ≤ 1 at once
      omega
  · change next.ledger.cmd other = _
    rw [isNext]
    exact (Function.update_of_ne differs ..).trans (Books.take_cmd ..)

/-- A command that is asked for is taken out of the rest of the list. -/
theorem Sweeps.canceled
    (sweeps : Sweeps start request queue pnode qsize) {visited rest : List Nat} {left : Nat}
    (nodes : queue.ledger.nodes request.isActiveQueue = visited ++ node :: rest)
    (isLast : pnode = visited.getLast?)
    (unselected : ∀ other ∈ visited, request.selects (queue.cmd other) = false)
    (selects : request.selects (queue.cmd node) = true) (length : rest.length ≤ left) {vdev : Nat}
    (books : next.books = PdevQueue.canceled queue.books node vdev request.isActiveQueue) :
    Sweeps start request next pnode left := by
  have member : node ∈ queue.ledger.nodes request.isActiveQueue := by
    rw [nodes]
    exact mem_append_right _ mem_cons_self
  obtain ⟨nextNodes, notLeft, sameCmd⟩ := lists_canceled exact member books
  have own : next.ledger.nodes request.isActiveQueue = visited ++ rest := by
    have nodup : (queue.ledger.nodes request.isActiveQueue).Nodup :=
      exact.nodup_nodes request.isActiveQueue
    rw [nodes, nodup_append] at nodup
    rw [nextNodes, if_pos rfl, nodes, erase_append_right, erase_cons_head]
    exact fun inVisited => nodup.2.2 node inVisited node mem_cons_self rfl
  have others : next.ledger.nodes (!request.isActiveQueue)
      = queue.ledger.nodes !request.isActiveQueue := by
    rw [nextNodes, if_neg (Bool.not_ne_self _)]
  refine ⟨⟨visited, rest, own, isLast, fun other inVisited => ?_, length⟩,
    fun other inStart isKept => ?_, fun other inNext => ?_, fun list other inNext => ?_,
    others.trans sweeps.others⟩
  · have inNext : other ∈ next.ledger.nodes request.isActiveQueue :=
      own ▸ mem_append_left _ inVisited
    rw [sameCmd other fun same => notLeft _ (same ▸ inNext)]
    exact unselected other inVisited
  · have inQueue := sweeps.kept other inStart isKept
    have differs : other ≠ node := by
      rintro rfl
      rw [sweeps.cmd _ other inQueue] at selects
      exact Bool.false_ne_true (isKept.symm.trans selects)
    rw [nextNodes, if_pos rfl]
    exact (mem_erase_of_ne differs).mpr inQueue
  · rw [nextNodes, if_pos rfl] at inNext
    exact sweeps.within other (mem_of_mem_erase inNext)
  · have inQueue : other ∈ queue.ledger.nodes list := by
      rw [nextNodes] at inNext
      split at inNext
      · exact mem_of_mem_erase inNext
      · exact inNext
    rw [sameCmd other fun same => notLeft list (same ▸ inNext)]
    exact sweeps.cmd list other inQueue

end

/-- What is known where the loop of a cancelation stops. -/
def SweepStops (start : PdevQueue) (request : CancelRequest) (result : PdevQueue × CancelStop) :
    Prop :=
  match result.2 with
  | .finished => Swept start request result.1
  | .removed _ pnode qsize => Sweeps start request result.1 pnode qsize
      ∧ (request.Single → Swept start request result.1)

theorem cancelLoop_sweeps (exact : queue.books.Exact config none none)
    (unmarked : ∀ node, queue.books.marked node = false) (named : request.Named)
    (sweeps : Sweeps start request queue pnode qsize) :
    SweepStops start request (cancelLoop request true qsize queue pnode pnode) := by
  induction qsize generalizing pnode with
  | zero =>
    obtain ⟨visited, rest, nodes, isLast, unselected, length⟩ := sweeps.walk
    rw [length_eq_zero_iff.mp (Nat.le_zero.mp length), append_nil] at nodes
    refine sweeps.swept fun node member => unselected node ?_
    rw [nodes] at member
    exact member
  | succ qsize ih =>
    obtain ⟨visited, rest, nodes, isLast, unselected, length⟩ := sweeps.walk
    have nodup : (queue.ledger.nodes request.isActiveQueue).Nodup :=
      exact.nodup_nodes request.isActiveQueue
    have isNext : nextNode (queue.pdevList request.isActiveQueue).nodes pnode = rest.head? := by
      rw [pdevList_nodes]
      change nextNode (queue.ledger.nodes _) _ = _
      rw [nodes] at nodup ⊢
      rw [isLast]
      exact nextNode_append nodup
    unfold cancelLoop
    rw [isNext]
    cases rest with
    | nil =>
      refine sweeps.swept fun node member => unselected node ?_
      rw [nodes, append_nil] at member
      exact member
    | cons node rest =>
      have member : node ∈ queue.ledger.nodes request.isActiveQueue := by
        rw [nodes]
        exact mem_append_right _ mem_cons_self
      dsimp only [head?_cons]
      cases selects : request.selects (queue.cmd node) with
      | false =>
        refine ih ⟨⟨visited ++ [node], rest, ?_, ?_, ?_, ?_⟩, sweeps.kept,
          sweeps.within, sweeps.cmd, sweeps.others⟩
        · rw [nodes, append_assoc, singleton_append]
        · rw [getLast?_concat]
        · intro other inVisited
          rcases mem_append.mp inVisited with before | isNode
          · exact unselected other before
          · rw [mem_singleton.mp isNode]
            exact selects
        · exact Nat.le_of_succ_le_succ length
      | true =>
        obtain ⟨vdev, -, ofVdev⟩ := exact.ofVdev request.isActiveQueue node member
        have cancels : SweepStops start request
            (queue.cancelNode node request.isActiveQueue pnode qsize) := by
          obtain ⟨next, isCanceled, books⟩ := cancelNode_books exact member ofVdev pnode qsize
          rw [isCanceled]
          have sweepsNext := sweeps.canceled exact nodes isLast unselected selects
            (Nat.le_of_succ_le_succ length) books
          refine ⟨sweepsNext, fun single => sweepsNext.swept fun other inNext => ?_⟩
          obtain ⟨nextNodes, notLeft, sameCmd⟩ := lists_canceled exact member books
          have differs : other ≠ node := fun same => notLeft _ (same ▸ inNext)
          rw [sameCmd other differs, ← Bool.not_eq_true]
          intro selectsOther
          rw [nextNodes, if_pos rfl] at inNext
          exact differs (selects_single exact named single (mem_of_mem_erase inNext)
            member selectsOther selects)
        cases isActive : request.isActiveQueue with
        | false =>
          rw [isActive] at cancels
          exact cancels
        | true =>
          rw [isActive] at cancels
          have hasPsoc := hasPsoc_of_selects named selects ofVdev
          have isUnmarked : (queue.commands node).cmdInUse.markedForActivation = false :=
            unmarked node
          rw [hasPsoc, isUnmarked]
          exact cancels

theorem cancelFinish_nodes (queue : PdevQueue) (request : CancelRequest) (cmd : Command) :
    (queue.cancelFinish request cmd).ledger.nodes = queue.ledger.nodes := by
  unfold cancelFinish
  split <;> rfl

theorem cancelFinish_cmd (queue : PdevQueue) (request : CancelRequest) (cmd : Command) :
    (queue.cancelFinish request cmd).cmd = queue.cmd := by
  unfold cancelFinish
  split <;> rfl

end PdevQueue

/-! ## Calls -/

/-- Where the commands that are asked for were taken, the rest of the cancelation leads to
its end. -/
def SweptEnds (config : SerConfig) (loops ends : Ledger → Prop) (start : PdevQueue)
    (request : CancelRequest) : Prop :=
  ∀ queue : PdevQueue, queue.books.Exact config none none → Swept start request queue →
    (Frame.cancelEnd request.isActiveQueue).Promoting loops ends queue []

namespace Thread

variable {config : SerConfig} {loops ends : Ledger → Prop} {start queue : PdevQueue}
  {request : CancelRequest}

/-- A thread has stopped in the loop of a cancelation. -/
structure Canceling (config : SerConfig) (start : PdevQueue) (request : CancelRequest)
    (queue : PdevQueue) (thread : Thread) : Prop where
  booked : thread.Booked config queue
  goesOn : ∃ cmd pnode qsize, thread = ⟨.cancelled request cmd pnode qsize, []⟩
    ∧ Sweeps start request queue pnode qsize ∧ (request.Single → Swept start request queue)

theorem canceling_or {result : PdevQueue × CancelStop}
    (booked : Booked config result.1 ⟨.afterCancel request result.2, []⟩)
    (stops : SweepStops start request result) (sweptEnds : SweptEnds config loops ends start request) :
    Canceling config start request result.1 ⟨.afterCancel request result.2, []⟩
      ∨ Promoting loops ends config result.1 ⟨.afterCancel request result.2, []⟩ := by
  obtain ⟨next, stop⟩ := result
  cases stop with
  | finished => exact .inr ⟨booked, sweptEnds next booked.exact stops⟩
  | removed cmd pnode qsize => exact .inl ⟨booked, cmd, pnode, qsize, rfl, stops.1, stops.2⟩

/-- The loop of a cancelation goes on, or has come to its end. -/
theorem Canceling.step {thread : Thread} (canceling : Canceling config start request queue thread)
    (named : request.Named) (sweptEnds : SweptEnds config loops ends start request)
    (stray : PdevQueue → PdevQueue) :
    Canceling config start request (thread.step stray queue true).1 (thread.step stray queue true).2
      ∨ Promoting loops ends config (thread.step stray queue true).1
        (thread.step stray queue true).2 := by
  have bookedNext := canceling.booked.step stray true
  have unmarked := canceling.booked.unmarked
  obtain ⟨⟨exact, ready, marks⟩, cmd, pnode, qsize, rfl, sweeps, isSwept⟩ := canceling
  have isStep : Thread.step stray queue true ⟨.cancelled request cmd pnode qsize, []⟩
      = ((queue.cancelResume request true cmd pnode qsize).1,
        ⟨.afterCancel request (queue.cancelResume request true cmd pnode qsize).2, []⟩) := by
    unfold Thread.step
    dsimp only
    rw [not_strays ready, if_neg Bool.false_ne_true]
  rw [isStep] at bookedNext ⊢
  refine canceling_or bookedNext ?_ sweptEnds
  have finished : (queue.cancelFinish request cmd).books.Exact config none none :=
    cancelFinish_exact exact
  have sameNodes := cancelFinish_nodes queue request cmd
  have sameCmd := cancelFinish_cmd queue request cmd
  have unmarkedFinish : ∀ node, (queue.cancelFinish request cmd).books.marked node = false := by
    intro node
    unfold cancelFinish
    split <;> exact unmarked (fun _ => nofun) node
  unfold cancelResume
  split
  next single => exact (isSwept single).congr sameNodes sameCmd
  next => exact cancelLoop_sweeps finished unmarkedFinish named (sweeps.congr sameNodes sameCmd)

end Thread

variable {config : SerConfig} {loops ends : Ledger → Prop} {stray : PdevQueue → PdevQueue}
  {queue next : PdevQueue} {request : CancelRequest}

/-- A cancelation takes what was asked for and ends. -/
theorem Completes.canceled (completes : Completes stray (· = true) queue (.cancel request) next)
    (promotes : Promotes config loops ends) (rested : Rested config queue)
    (isNonscan : ¬request.cmdType < serCmdNonscan) (named : request.Named)
    (sweptEnds : SweptEnds config loops ends queue request) : ends next.ledger := by
  have ended : Thread.Canceling config queue request next ⟨.idle, []⟩
      ∨ Thread.Promoting loops ends config next ⟨.idle, []⟩ := by
    refine @Completes.invariant _ _ _ _ completes (fun state =>
      state.2.Canceling config queue request state.1
        ∨ state.2.Promoting loops ends config state.1) ?_ ?_
    · have keeps : Thread.Keeps config (queue, ⟨(Call.cancel request).frame, []⟩) :=
        rested.keeps trivial
      have booked : Thread.Booked config
          (Thread.step stray queue true ⟨(Call.cancel request).frame, []⟩).1
          (Thread.step stray queue true ⟨(Call.cancel request).frame, []⟩).2 :=
        keeps.step stray true
      have isStep : Thread.step stray queue true ⟨(Call.cancel request).frame, []⟩
          = ((queue.cancelSection request true).1,
            ⟨.afterCancel request (queue.cancelSection request true).2, []⟩) :=
        if_neg isNonscan
      rw [isStep] at booked ⊢
      have stops := cancelLoop_sweeps rested.exact rested.unmarked named (sweeps_start queue request)
      exact Thread.canceling_or booked stops sweptEnds
    · rintro state (canceling | promoting)
      · exact canceling.step named sweptEnds stray
      · exact .inr (promoting.step promotes stray)
  rcases ended with ⟨-, _, _, _, isCanceled, -⟩ | promoting
  · cases isCanceled
  · exact promoting.goesOn.2

/-- A cancelation of scan commands leaves the queue alone. -/
theorem Completes.canceled_scan
    (completes : Completes stray (· = true) queue (.cancel request) next)
    (isScan : request.cmdType < serCmdNonscan) : next = queue := by
  have same : ((next, ⟨.idle, []⟩) : PdevQueue × Thread) = (queue, ⟨.idle, []⟩) := by
    refine @Completes.invariant _ _ _ _ completes (fun state => state = (queue, ⟨.idle, []⟩)) ?_ ?_
    · exact if_pos isScan
    · rintro state rfl
      rfl
  exact congrArg Prod.fst same

end Sm8650.Wlan
