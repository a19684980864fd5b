import Mathlib.Data.List.Nodup
import Sm8650.Transition.Reach

/-!
# Links of a camera session that run in sync

A session of the camera request manager has up to four links, taken from one pool. Two links
are configured to run in sync by giving each of them the other one in the array of its sync
links. Unlinking takes a link out of the session and out of the arrays of its peers, but
leaves the numbers of their entries as they are.

Source: `cam_req_mgr_core.c`.
-/

namespace Sm8650.Crm

open Transition Function List Option

/-- `MAXIMUM_LINKS_PER_SESSION` -/
def maximumLinksPerSession : Nat := 4

/-- `MAX_LINKS_PER_SESSION` -/
def maxLinksPerSession : Nat := 2

/-- `struct cam_req_mgr_core_link`, as far as sync links go; links are known by their index in
`g_links`. -/
structure CoreLink where
  isUsed : Bool
  linkHdl : Int
  parent : Option Nat
  syncLink : Nat → Option Nat
  numSyncLinks : Nat

/-- `struct cam_req_mgr_core_session` -/
structure CoreSession where
  links : List (Option Nat)
  numLinks : Nat
  syncMode : Bool

/-- The pool of links, the sessions and the table of link handles. -/
structure CrmState where
  gLinks : Nat → CoreLink
  sessions : Nat → CoreSession
  handles : Int → Option Nat

namespace CoreLink

/-- `cam_req_mgr_core_link_reset` -/
def reset (link : CoreLink) : CoreLink :=
  { link with linkHdl := 0, parent := none, syncLink := fun _ => none, numSyncLinks := 0 }

end CoreLink

namespace CrmState

/-- The state with another link at an index of the pool. -/
def withLink (state : CrmState) (link : Nat) (changed : CoreLink) : CrmState :=
  { state with gLinks := update state.gLinks link changed }

/-- The state with another session. -/
def withSession (state : CrmState) (session : Nat) (changed : CoreSession) : CrmState :=
  { state with sessions := update state.sessions session changed }

/-- `__cam_req_mgr_reserve_link`; `inQ` says whether the input queue could be allocated. -/
def reserveLink (state : CrmState) (session : Nat) (inQ : Bool) : CrmState × Option Nat :=
  let old := state.sessions session
  if maximumLinksPerSession ≤ old.numLinks then (state, none)
  else
    match (List.range maximumLinksPerSession).find? fun i => !(state.gLinks i).isUsed with
    | none => (state, none)
    | some i =>
      let taken := { (state.gLinks i).reset with isUsed := true }
      if !inQ then (state.withLink i taken, none)
      else
        let state := state.withLink i { taken with parent := some session }
        if none ∈ old.links then
          (state.withSession session
            { old with
              links := old.links.set (old.links.idxOf none) (some i)
              numLinks := old.numLinks + 1 }, some i)
        else (state, none)

/-- A peer among the links of the session loses the entries that the leaving link has for it. -/
def clearPeer (syncLink : Nat → Option Nat) (gLinks : Nat → CoreLink) : Option Nat → Nat → CoreLink
  | none => gLinks
  | some peer =>
    update gLinks peer
      { gLinks peer with
        syncLink := fun j =>
          if j < maximumLinksPerSession - 1 ∧ syncLink j = some peer then none
          else (gLinks peer).syncLink j }

/-- `__cam_req_mgr_unreserve_link`, with `__cam_req_mgr_free_link`. -/
def unreserveLink (state : CrmState) (session link : Nat) : CrmState :=
  let old := state.sessions session
  if old.numLinks = 0 then state
  else
    let links := old.links.map fun entry => if entry = some link then none else entry
    let gLinks := links.foldl (clearPeer (state.gLinks link).syncLink) state.gLinks
    { state with
      gLinks := update gLinks link { (gLinks link).reset with isUsed := false }
      sessions := update state.sessions session
        { old with links := links, numLinks := old.numLinks - 1 } }

/-- `cam_req_mgr_link`: the handle that is created, if one is, and whether the rest succeeds. -/
def link (state : CrmState) (session : Nat) (inQ : Bool) (handle : Option Int)
    (success : Bool) : CrmState :=
  match state.reserveLink session inQ, handle with
  | (state, none), _ => state
  | (state, some i), none => state.unreserveLink session i
  | (state, some i), some handle =>
    let created := state.withLink i { state.gLinks i with linkHdl := handle }
    if success then
      { created with handles := update state.handles handle (some i) }
    else created.unreserveLink session i

/-- `cam_req_mgr_unlink`, with `__cam_req_mgr_unlink`. -/
def unlink (state : CrmState) (session : Nat) (handle : Int) : CrmState :=
  match state.handles handle with
  | none => state
  | some i =>
    if (state.gLinks i).linkHdl ≠ handle then state
    else
      let destroyed := state.withLink i { state.gLinks i with linkHdl := -1 }
      { destroyed with handles := update state.handles handle none }.unreserveLink session i

/-- The first loop of `cam_req_mgr_sync_config`: every link is found and loses its sync links,
until one is not found. -/
def resetLinks (numLinks : Nat) (state : CrmState) : List Int → CrmState × Option (List Nat)
  | [] => (state, some [])
  | handle :: rest =>
    if handle = 0 then (state, none)
    else
      match state.handles handle with
      | none => (state, none)
      | some i =>
        if (state.gLinks i).linkHdl ≠ handle then (state, none)
        else
          let state := state.withLink i
            { state.gLinks i with
              numSyncLinks := 0
              syncLink := fun j =>
                if j < numLinks - 1 then none else (state.gLinks i).syncLink j }
          let (state, found) := resetLinks numLinks state rest
          (state, found.map (i :: ·))

/-- A link adds the other ones as its sync links. -/
def addSyncLinks (links : List Nat) (gLinks : Nat → CoreLink) (i : Nat) : Nat → CoreLink :=
  match links[i]? with
  | none => gLinks
  | some link =>
    let others := links.eraseIdx i
    update gLinks link
      { gLinks link with
        syncLink := fun j => if j < others.length then others[j]? else (gLinks link).syncLink j
        numSyncLinks := (gLinks link).numSyncLinks + others.length }

/-- `cam_req_mgr_sync_config` -/
def syncConfig (state : CrmState) (session : Nat) (sync : Bool) (numLinks : Int)
    (first second : Int) : CrmState :=
  if numLinks < 0 ∨ maxLinksPerSession < numLinks then state
  else if first = 0 ∨ second = 0 then state
  else
    match resetLinks numLinks.toNat state ([first, second].take numLinks.toNat) with
    | (state, none) => state
    | (state, some links) =>
      let gLinks :=
        if sync then (List.range links.length).foldl (addSyncLinks links) state.gLinks
        else state.gLinks
      { state with
        gLinks := gLinks
        sessions := update state.sessions session
          { state.sessions session with syncMode := sync } }

/-- The calls of the interface. -/
inductive Call
  | link (session : Nat) (inQ : Bool) (handle : Option Int) (success : Bool)
  | unlink (session : Nat) (handle : Int)
  | syncConfig (session : Nat) (sync : Bool) (numLinks first second : Int)
  deriving DecidableEq, Repr

/-- One call. -/
def step (state : CrmState) : Call → CrmState
  | .link session inQ handle success => state.link session inQ handle success
  | .unlink session handle => state.unlink session handle
  | .syncConfig session sync numLinks first second =>
    state.syncConfig session sync numLinks first second

/-- Sessions without links. -/
def new : CrmState where
  gLinks _ := ⟨false, 0, none, fun _ => none, 0⟩
  sessions _ := ⟨List.replicate maximumLinksPerSession none, 0, false⟩
  handles _ := none

/-- The link is one of the session. -/
def Live (state : CrmState) (session link : Nat) : Prop :=
  some link ∈ (state.sessions session).links

instance (state : CrmState) (session link : Nat) : Decidable (state.Live session link) :=
  inferInstanceAs (Decidable (_ ∈ _))

/-- The link has the peer among its sync links. -/
def Lists (state : CrmState) (link peer : Nat) : Prop :=
  ∃ k < (state.gLinks link).numSyncLinks, (state.gLinks link).syncLink k = some peer

/-- The sync links as `cam_req_mgr_cb_add_req` and `cam_req_mgr_sync_info_for_sync_mode` use
them, unchecked: there is none if one of them is missing or has been freed. -/
def useSyncLinks (state : CrmState) (link : Nat) : Option (List Nat) :=
  (List.range (state.gLinks link).numSyncLinks).mapM fun i =>
    ((state.gLinks link).syncLink i).filter fun peer => (state.gLinks peer).isUsed

/-- What the sync links of the live links of every session are to be. -/
structure SyncGraph (state : CrmState) : Prop where
  entries : ∀ session link, state.Live session link → ∀ k < (state.gLinks link).numSyncLinks,
    ∃ peer, (state.gLinks link).syncLink k = some peer ∧ state.Live session peer ∧ peer ≠ link
  distinct : ∀ session link, state.Live session link →
    ∀ k < (state.gLinks link).numSyncLinks, ∀ l < (state.gLinks link).numSyncLinks,
      (state.gLinks link).syncLink k = (state.gLinks link).syncLink l → k = l
  symmetric : ∀ session first second, state.Live session first → state.Live session second →
    (state.Lists first second ↔ state.Lists second first)
  usable : ∀ session link, state.Live session link → (state.useSyncLinks link).isSome

/-- The links of a call, in its session. -/
def linksOf (state : CrmState) (handles : List Int) : List Nat :=
  handles.filterMap state.handles

/-- The handles are distinct ones of live links of the session. -/
def OfSession (state : CrmState) (session : Nat) (handles : List Int) : Prop :=
  handles.Nodup ∧ ∀ handle ∈ handles, ∃ link, state.handles handle = some link
    ∧ state.Live session link

/-- Every live link that lists one of these is one of these. -/
def Closed (state : CrmState) (session : Nat) (links : List Nat) : Prop :=
  ∀ link ∈ links, ∀ peer, state.Live session peer → state.Lists peer link → peer ∈ links

/-- A call with a handle that is new, or with live ones of its session. -/
def WellFormed (state : CrmState) : Call → Prop
  | .link _ _ handle _ => ∀ new ∈ handle, 0 < new ∧ state.handles new = none
  | .unlink session handle => state.OfSession session [handle]
  | .syncConfig session _ numLinks first second =>
    state.OfSession session ([first, second].take numLinks.toNat)

/-- Moreover no other link runs in sync with one that is unlinked or configured. -/
def LeavesNoPeer (state : CrmState) (call : Call) : Prop :=
  state.WellFormed call ∧
    match call with
    | .link _ _ _ _ => True
    | .unlink session handle => state.Closed session (state.linksOf [handle])
    | .syncConfig session _ numLinks first second =>
      numLinks ≤ maxLinksPerSession → first ≠ 0 → second ≠ 0 →
        state.Closed session (state.linksOf ([first, second].take numLinks.toNat))

/-! ## The links of a session -/

variable {links : List (Option Nat)} {state : CrmState}

/-- A free entry is taken. -/
theorem set_perm (free : none ∈ links) (i : Nat) :
    (links.set (links.idxOf none) (some i)).Perm (some i :: links.erase none) := by
  induction links with
  | nil => exact absurd free not_mem_nil
  | cons first rest ih =>
    cases first with
    | none => simp
    | some other =>
      have later : none ∈ rest := by simpa using free
      rw [idxOf_cons_ne _ (some_ne_none other)]
      exact ((ih later).cons _).trans (List.Perm.swap _ _ _)

/-- An entry is cleared. -/
theorem countP_clear (links : List (Option Nat)) (link : Nat) :
    (links.map fun entry => if entry = some link then none else entry).countP isSome
        + links.count (some link) = links.countP isSome := by
  induction links with
  | nil => rfl
  | cons first rest ih =>
    rw [map_cons, countP_cons, countP_cons, count_cons]
    by_cases isLink : first = some link
    · simp only [isLink]
      rw [← ih]
      simp
      omega
    · have notBeq : (first == some link) = false := by simpa using isLink
      rw [if_neg isLink, notBeq, ← ih]
      simp
      omega

theorem count_clear_le (links : List (Option Nat)) (link other : Nat) :
    (links.map fun entry => if entry = some link then none else entry).count (some other)
      ≤ links.count (some other) := by
  induction links with
  | nil => exact Nat.le_refl _
  | cons first rest ih =>
    rw [map_cons, count_cons, count_cons]
    split
    · simp
      omega
    · omega

theorem mem_clear {link other : Nat} :
    some other ∈ links.map (fun entry => if entry = some link then none else entry)
      ↔ some other ∈ links ∧ other ≠ link := by
  rw [List.mem_map]
  constructor
  · rintro ⟨entry, among, isOther⟩
    split at isOther
    · cases isOther
    case isFalse isNot =>
      subst isOther
      exact ⟨among, fun same => isNot (congrArg some same)⟩
  · rintro ⟨among, isOther⟩
    exact ⟨some other, among, if_neg fun same => isOther (some.inj same)⟩

/-! ## The invariant -/

/-- A link runs alone, or in sync with one other link that runs in sync with it. -/
def Paired (state : CrmState) (session link : Nat) : Prop :=
  (state.gLinks link).numSyncLinks = 0
    ∨ ∃ peer, (state.gLinks link).numSyncLinks = 1 ∧ (state.gLinks link).syncLink 0 = some peer
      ∧ state.Live session peer ∧ peer ≠ link ∧ (state.gLinks peer).numSyncLinks = 1
      ∧ (state.gLinks peer).syncLink 0 = some link

/-- What holds between any two calls. -/
structure Sound (state : CrmState) : Prop where
  handles : ∀ handle link, state.handles handle = some link →
    (state.gLinks link).linkHdl = handle ∧ ∃ session, state.Live session link
  used : ∀ session link, state.Live session link →
    (state.gLinks link).isUsed = true ∧ (state.gLinks link).parent = some session
  single : ∀ session link, (state.sessions session).links.count (some link) ≤ 1
  count : ∀ session,
    (state.sessions session).numLinks = (state.sessions session).links.countP isSome
  paired : ∀ session link, state.Live session link → state.Paired session link
  rest : ∀ session link, state.Live session link →
    ∀ j, (state.gLinks link).numSyncLinks ≤ j → (state.gLinks link).syncLink j = none

theorem sound_new : new.Sound := by
  have none_live : ∀ session link, ¬new.Live session link := by
    intro session link live
    have isNone := eq_of_mem_replicate live
    cases isNone
  constructor
  · exact fun _ _ found => absurd found nofun
  · exact fun session link live => absurd live (none_live session link)
  · intro session link
    exact Nat.zero_le 1
  · exact fun _ => rfl
  · exact fun session link live => absurd live (none_live session link)
  · exact fun session link live => absurd live (none_live session link)

section

variable (sound : state.Sound)

include sound

theorem Sound.syncGraph : state.SyncGraph := by
  have lists : ∀ session link peer, state.Live session link →
      (state.Lists link peer ↔ (state.gLinks link).numSyncLinks = 1
        ∧ (state.gLinks link).syncLink 0 = some peer) := by
    intro session link peer live
    constructor
    · rintro ⟨k, below, isPeer⟩
      rcases sound.paired session link live with alone | ⟨_, one, _⟩
      · rw [alone] at below
        exact absurd below (Nat.not_lt_zero k)
      · rw [one] at below
        rw [Nat.lt_one_iff.mp below] at isPeer
        exact ⟨one, isPeer⟩
    · rintro ⟨one, isPeer⟩
      exact ⟨0, one ▸ Nat.one_pos, isPeer⟩
  have listsBack : ∀ session first second, state.Live session first →
      state.Live session second → state.Lists first second → state.Lists second first := by
    intro session first second firstLive secondLive listed
    obtain ⟨one, isPeer⟩ := (lists session first second firstLive).mp listed
    rcases sound.paired session first firstLive with alone | ⟨peer, _, isSecond, _, _, both⟩
    · rw [alone] at one
      cases one
    · rw [isPeer] at isSecond
      cases isSecond
      exact (lists session second first secondLive).mpr both
  constructor
  case entries =>
    intro session link live k below
    rcases sound.paired session link live with alone | ⟨peer, one, isPeer, peerLive, isOther, _⟩
    · rw [alone] at below
      exact absurd below (Nat.not_lt_zero k)
    · rw [one] at below
      rw [Nat.lt_one_iff.mp below]
      exact ⟨peer, isPeer, peerLive, isOther⟩
  case distinct =>
    intro session link live k kBelow l lBelow _
    rcases sound.paired session link live with alone | ⟨_, one, _⟩
    · rw [alone] at kBelow
      exact absurd kBelow (Nat.not_lt_zero k)
    · rw [one] at kBelow lBelow
      exact (Nat.lt_one_iff.mp kBelow).trans (Nat.lt_one_iff.mp lBelow).symm
  case symmetric =>
    intro session first second firstLive secondLive
    exact ⟨listsBack session first second firstLive secondLive,
      listsBack session second first secondLive firstLive⟩
  case usable =>
    intro session link live
    unfold useSyncLinks
    rcases sound.paired session link live with alone | ⟨peer, one, isPeer, peerLive, _⟩
    · rw [alone]
      rfl
    · rw [one]
      simp [isPeer, filter_some, (sound.used session peer peerLive).1]

/-- Two sessions have no link in common. -/
theorem Sound.live_unique {first second link : Nat}
    (inFirst : state.Live first link) (inSecond : state.Live second link) : first = second :=
  some.inj ((sound.used first link inFirst).2.symm.trans (sound.used second link inSecond).2)

/-- An entry of the pool changes that no session has. -/
theorem Sound.withIdle {link : Nat} (idle : ∀ session, ¬state.Live session link)
    (changed : CoreLink) : (state.withLink link changed).Sound := by
  have same : ∀ session other, state.Live session other →
      (state.withLink link changed).gLinks other = state.gLinks other := by
    intro session other live
    have isOther : other ≠ link := fun isLink => idle session (isLink ▸ live)
    exact update_of_ne isOther _ _
  constructor
  case handles =>
    intro handle other found
    obtain ⟨isHandle, session, live⟩ := sound.handles handle other found
    rw [same session other live]
    exact ⟨isHandle, session, live⟩
  case used =>
    intro session other live
    rw [same session other live]
    exact sound.used session other live
  case single => exact sound.single
  case count => exact sound.count
  case paired =>
    intro session other live
    unfold Paired
    rw [same session other live]
    rcases sound.paired session other live with alone | ⟨peer, one, isPeer, peerLive, both⟩
    · exact .inl alone
    · right
      refine ⟨peer, one, isPeer, peerLive, ?_⟩
      rw [same session peer peerLive]
      exact both
  case rest =>
    intro session other live
    rw [same session other live]
    exact sound.rest session other live

/-- A link of the pool that is not in use is in no session. -/
theorem Sound.idle_of_unused {link : Nat}
    (unused : (state.gLinks link).isUsed = false) : ∀ session, ¬state.Live session link := by
  intro session live
  rw [(sound.used session link live).1] at unused
  cases unused

/-- A link that is alone is entered into a session. -/
theorem Sound.enter {session i : Nat} {old : CoreSession}
    (isOld : state.sessions session = old) (free : none ∈ old.links)
    (idle : ∀ session, ¬state.Live session i) (used : (state.gLinks i).isUsed = true)
    (parent : (state.gLinks i).parent = some session) (alone : (state.gLinks i).numSyncLinks = 0)
    (noSync : ∀ j, (state.gLinks i).syncLink j = none) :
    (state.withSession session
      { old with
        links := old.links.set (old.links.idxOf none) (some i)
        numLinks := old.numLinks + 1 }).Sound := by
  set next := state.withSession session
    { old with
      links := old.links.set (old.links.idxOf none) (some i)
      numLinks := old.numLinks + 1 } with isNext
  have perm := set_perm free i
  have here : next.sessions session = { old with
      links := old.links.set (old.links.idxOf none) (some i)
      numLinks := old.numLinks + 1 } := update_self _ _ _
  have elsewhere : ∀ other, other ≠ session → next.sessions other = state.sessions other :=
    fun other isOther => update_of_ne isOther _ _
  have live : ∀ other link, next.Live other link ↔
      state.Live other link ∨ other = session ∧ link = i := by
    intro other link
    by_cases isHere : other = session
    · subst isHere
      unfold Live
      rw [here, perm.mem_iff, isOld]
      simp [or_comm]
    · unfold Live
      rw [elsewhere other isHere]
      simp [isHere]
  constructor
  case handles =>
    intro handle link found
    obtain ⟨isHandle, other, before⟩ := sound.handles handle link found
    exact ⟨isHandle, other, (live other link).mpr (.inl before)⟩
  case used =>
    intro other link isLive
    rcases (live other link).mp isLive with before | ⟨rfl, rfl⟩
    · exact sound.used other link before
    · exact ⟨used, parent⟩
  case single =>
    intro other link
    by_cases isHere : other = session
    · subst isHere
      rw [here, perm.count_eq, count_cons, count_erase_of_ne (by simp)]
      have before := sound.single other link
      rw [isOld] at before
      split
      case isTrue isNew =>
        have isNew : i = link := by simpa using isNew
        subst isNew
        have noneBefore : old.links.count (some i) = 0 := by
          rw [count_eq_zero]
          have notIn := idle other
          rw [Live, isOld] at notIn
          exact notIn
        omega
      case isFalse => exact before
    · rw [elsewhere other isHere]
      exact sound.single other link
  case count =>
    intro other
    by_cases isHere : other = session
    · subst isHere
      have before := sound.count other
      rw [isOld] at before
      have split := perm_cons_erase free
      rw [here, perm.countP_eq, countP_cons, before, split.countP_eq]
      rfl
    · rw [elsewhere other isHere]
      exact sound.count other
  case paired =>
    intro other link isLive
    rcases (live other link).mp isLive with before | ⟨rfl, rfl⟩
    · rcases sound.paired other link before with isAlone | ⟨peer, one, isPeer, peerLive, both⟩
      · exact .inl isAlone
      · exact .inr ⟨peer, one, isPeer, (live other peer).mpr (.inl peerLive), both⟩
    · exact .inl alone
  case rest =>
    intro other link isLive
    rcases (live other link).mp isLive with before | ⟨rfl, rfl⟩
    · exact sound.rest other link before
    · exact fun j _ => noSync j

end

/-- A link of a session that is in sync with no other one, and that no handle leads to. -/
structure Fresh (state : CrmState) (session link : Nat) : Prop where
  live : state.Live session link
  alone : (state.gLinks link).numSyncLinks = 0
  noSync : ∀ j, (state.gLinks link).syncLink j = none
  noHandle : ∀ handle, state.handles handle ≠ some link

theorem Sound.reserveLink (sound : state.Sound) (session : Nat) (inQ : Bool) :
    (state.reserveLink session inQ).1.Sound
      ∧ (state.reserveLink session inQ).1.handles = state.handles
      ∧ ∀ i ∈ (state.reserveLink session inQ).2,
          (state.reserveLink session inQ).1.Fresh session i := by
  unfold CrmState.reserveLink
  dsimp only
  split
  case isTrue => exact ⟨sound, rfl, nofun⟩
  case isFalse =>
    split
    case h_1 => exact ⟨sound, rfl, nofun⟩
    case h_2 i found =>
      have unused : (state.gLinks i).isUsed = false := by simpa using find?_some found
      have idle := sound.idle_of_unused unused
      split
      case isTrue => exact ⟨sound.withIdle idle _, rfl, nofun⟩
      case isFalse =>
        set taken : CoreLink :=
          { { (state.gLinks i).reset with isUsed := true } with parent := some session }
        have reset := sound.withIdle idle taken
        have isTaken : (state.withLink i taken).gLinks i = taken := update_self _ _ _
        split
        case isFalse => exact ⟨reset, rfl, nofun⟩
        case isTrue free =>
          refine ⟨?_, rfl, ?_⟩
          · apply reset.enter rfl free idle
            · rw [isTaken]
            · rw [isTaken]
            · rw [isTaken]
              rfl
            · rw [isTaken]
              exact fun _ => rfl
          · rintro _ ⟨⟩
            constructor
            · show some i ∈ (update state.sessions session _ session).links
              rw [update_self]
              exact (set_perm free i).mem_iff.mpr mem_cons_self
            · show ((state.withLink i taken).gLinks i).numSyncLinks = 0
              rw [isTaken]
              rfl
            · intro j
              show ((state.withLink i taken).gLinks i).syncLink j = none
              rw [isTaken]
              rfl
            · intro handle leads
              obtain ⟨_, other, live⟩ := sound.handles handle i leads
              exact idle other live

theorem clearPeers_none {syncLink : Nat → Option Nat} (noSync : ∀ j, syncLink j = none)
    (peers : List (Option Nat)) (gLinks : Nat → CoreLink) :
    peers.foldl (clearPeer syncLink) gLinks = gLinks := by
  induction peers generalizing gLinks with
  | nil => rfl
  | cons entry rest ih =>
    rw [foldl_cons]
    have same : clearPeer syncLink gLinks entry = gLinks := by
      cases entry with
      | none => rfl
      | some peer => simp [clearPeer, noSync]
    rw [same]
    exact ih gLinks

/-- A link that is alone leaves its session. -/
theorem Sound.unreserveLink (sound : state.Sound) {session i : Nat} (fresh : state.Fresh session i) :
    (state.unreserveLink session i).Sound := by
  unfold CrmState.unreserveLink
  dsimp only
  have listed : 0 < (state.sessions session).links.countP isSome :=
    countP_pos_iff.mpr ⟨some i, fresh.live, rfl⟩
  rw [if_neg (by rw [sound.count session]; exact Nat.ne_of_gt listed), clearPeers_none fresh.noSync]
  set next : CrmState := { state with
    gLinks := update state.gLinks i { (state.gLinks i).reset with isUsed := false }
    sessions := update state.sessions session
      { state.sessions session with
        links := (state.sessions session).links.map
          fun entry => if entry = some i then none else entry
        numLinks := (state.sessions session).numLinks - 1 } } with isNext
  have here : next.sessions session = { state.sessions session with
      links := (state.sessions session).links.map
        fun entry => if entry = some i then none else entry
      numLinks := (state.sessions session).numLinks - 1 } := update_self _ _ _
  have elsewhere : ∀ other, other ≠ session → next.sessions other = state.sessions other :=
    fun other isOther => update_of_ne isOther _ _
  have same : ∀ link, link ≠ i → next.gLinks link = state.gLinks link :=
    fun link isOther => update_of_ne isOther _ _
  have live : ∀ other link, next.Live other link ↔ state.Live other link ∧ link ≠ i := by
    intro other link
    by_cases isHere : other = session
    · subst isHere
      unfold Live
      rw [here]
      exact mem_clear
    · unfold Live
      rw [elsewhere other isHere]
      refine ⟨fun before => ⟨before, ?_⟩, And.left⟩
      rintro rfl
      exact isHere (sound.live_unique before fresh.live)
  constructor
  case handles =>
    intro handle link found
    obtain ⟨isHandle, other, before⟩ := sound.handles handle link found
    have isOther : link ≠ i := fun isLink => fresh.noHandle handle (isLink ▸ found)
    rw [same link isOther]
    exact ⟨isHandle, other, (live other link).mpr ⟨before, isOther⟩⟩
  case used =>
    intro other link isLive
    have before := (live other link).mp isLive
    rw [same link before.2]
    exact sound.used other link before.1
  case single =>
    intro other link
    by_cases isHere : other = session
    · subst isHere
      rw [here]
      exact Nat.le_trans (count_clear_le _ _ _) (sound.single other link)
    · rw [elsewhere other isHere]
      exact sound.single other link
  case count =>
    intro other
    by_cases isHere : other = session
    · subst isHere
      have once : (state.sessions other).links.count (some i) = 1 :=
        Nat.le_antisymm (sound.single other i) (count_pos_iff.mpr fresh.live)
      have cleared := countP_clear (state.sessions other).links i
      rw [here]
      dsimp only
      rw [sound.count other]
      omega
    · rw [elsewhere other isHere]
      exact sound.count other
  case paired =>
    intro other link isLive
    have before := (live other link).mp isLive
    unfold Paired
    rw [same link before.2]
    rcases sound.paired other link before.1 with alone | ⟨peer, one, isPeer, peerLive, isOther, both⟩
    · exact .inl alone
    · right
      have notLeaving : peer ≠ i := by
        rintro rfl
        rw [fresh.alone] at both
        exact absurd both.1 Nat.zero_ne_one
      refine ⟨peer, one, isPeer, (live other peer).mpr ⟨peerLive, notLeaving⟩, isOther, ?_⟩
      rw [same peer notLeaving]
      exact both
  case rest =>
    intro other link isLive
    have before := (live other link).mp isLive
    rw [same link before.2]
    exact sound.rest other link before.1

/-- Only the handle of a link changes, and no handle leads to it. -/
theorem Sound.withHandle (sound : state.Sound) {session i : Nat} (fresh : state.Fresh session i)
    (handle : Int) : (state.withLink i { state.gLinks i with linkHdl := handle }).Sound
      ∧ (state.withLink i { state.gLinks i with linkHdl := handle }).Fresh session i := by
  have same : ∀ {α : Type} (field : CoreLink → α),
      (∀ link : CoreLink, field { link with linkHdl := handle } = field link) → ∀ other,
        field ((state.withLink i { state.gLinks i with linkHdl := handle }).gLinks other)
          = field (state.gLinks other) := by
    exact fun field isSame => field_update field (isSame _)
  have num := same CoreLink.numSyncLinks fun _ => rfl
  have sync := same CoreLink.syncLink fun _ => rfl
  refine ⟨?_, fresh.live, ?_, ?_, fresh.noHandle⟩
  · constructor
    case handles =>
      intro other link found
      have isOther : link ≠ i := fun isLink => fresh.noHandle other (isLink ▸ found)
      obtain ⟨isHandle, live⟩ := sound.handles other link found
      refine ⟨?_, live⟩
      show (update state.gLinks i _ link).linkHdl = other
      rw [update_of_ne isOther]
      exact isHandle
    case used =>
      intro other link live
      rw [same CoreLink.isUsed fun _ => rfl, same CoreLink.parent fun _ => rfl]
      exact sound.used other link live
    case single => exact sound.single
    case count => exact sound.count
    case paired =>
      intro other link live
      unfold Paired
      simp only [num, sync]
      exact sound.paired other link live
    case rest =>
      intro other link live
      rw [num, sync]
      exact sound.rest other link live
  · rw [num]
    exact fresh.alone
  · rw [sync]
    exact fresh.noSync

/-! ## The calls -/

section

variable (sound : state.Sound)

include sound

theorem Sound.link (session : Nat) (inQ : Bool) {handle : Option Int}
    (success : Bool) (isNew : ∀ new ∈ handle, 0 < new ∧ state.handles new = none) :
    (state.link session inQ handle success).Sound := by
  unfold CrmState.link
  have reserved := sound.reserveLink session inQ
  split
  case h_1 next same =>
    rw [same] at reserved
    exact reserved.1
  case h_2 next i same =>
    rw [same] at reserved
    exact reserved.1.unreserveLink (reserved.2.2 i rfl)
  case h_3 next i handle same =>
    rw [same] at reserved
    have fresh := reserved.2.2 i rfl
    have created := reserved.1.withHandle fresh handle
    split
    case isFalse => exact created.1.unreserveLink created.2
    case isTrue =>
      constructor
      case handles =>
        intro other link found
        dsimp only at found ⊢
        by_cases isHandle : other = handle
        · rw [isHandle, update_self] at found
          cases found
          refine ⟨?_, session, fresh.live⟩
          show (update next.gLinks i _ i).linkHdl = other
          rw [update_self, isHandle]
        · rw [update_of_ne isHandle] at found
          exact created.1.handles other link found
      case used => exact created.1.used
      case single => exact created.1.single
      case count => exact created.1.count
      case paired => exact created.1.paired
      case rest => exact created.1.rest

/-- A link that no other one lists runs alone. -/
theorem Sound.alone_of_closed {session link : Nat} {links : List Nat}
    (live : state.Live session link) (closed : state.Closed session links) (among : link ∈ links) :
    (state.gLinks link).numSyncLinks = 0
      ∨ ∃ peer ∈ links, peer ≠ link ∧ (state.gLinks link).syncLink 0 = some peer := by
  rcases sound.paired session link live with alone | ⟨peer, _, isPeer, peerLive, isOther, one, back⟩
  · exact .inl alone
  · exact .inr ⟨peer, closed link among peer peerLive ⟨0, one ▸ Nat.one_pos, back⟩, isOther, isPeer⟩

theorem Sound.unlink {session : Nat} {handle : Int} (ofSession : state.OfSession session [handle])
    (closed : state.Closed session (state.linksOf [handle])) :
    (state.unlink session handle).Sound := by
  obtain ⟨i, leads, live⟩ := ofSession.2 handle mem_cons_self
  have isHandle := (sound.handles handle i leads).1
  have isLinks : state.linksOf [handle] = [i] := by simp [linksOf, leads]
  rw [isLinks] at closed
  have alone : (state.gLinks i).numSyncLinks = 0 := by
    rcases sound.alone_of_closed live closed mem_cons_self with alone | ⟨peer, among, isOther, _⟩
    · exact alone
    · exact absurd (mem_singleton.mp among) isOther
  have removed : Sound { state with handles := update state.handles handle none } :=
    { sound with
      handles := fun other link found => sound.handles other link (of_update_none found).2 }
  have fresh : Fresh { state with handles := update state.handles handle none }
      session i := by
    refine ⟨live, alone, fun j => sound.rest session i live j (alone ▸ Nat.zero_le j), ?_⟩
    intro other found
    obtain ⟨different, before⟩ := of_update_none found
    exact different ((sound.handles other i before).1.symm.trans isHandle)
  have destroyed := removed.withHandle fresh (-1)
  unfold CrmState.unlink
  rw [leads]
  dsimp only
  rw [if_neg (not_not.mpr isHandle)]
  exact destroyed.1.unreserveLink destroyed.2

/-- Two links that no other one lists are paired with each other, or run alone. -/
theorem Sound.pair {session first second : Nat} {next : CrmState}
    (firstLive : state.Live session first) (secondLive : state.Live session second)
    (isOther : first ≠ second) (closed : state.Closed session [first, second])
    (handles : next.handles = state.handles)
    (sessions : ∀ other, (next.sessions other).links = (state.sessions other).links
      ∧ (next.sessions other).numLinks = (state.sessions other).numLinks)
    (others : ∀ link, link ≠ first → link ≠ second → next.gLinks link = state.gLinks link)
    (same : ∀ link, (next.gLinks link).isUsed = (state.gLinks link).isUsed
      ∧ (next.gLinks link).parent = (state.gLinks link).parent
      ∧ (next.gLinks link).linkHdl = (state.gLinks link).linkHdl)
    (num : (next.gLinks first).numSyncLinks = (next.gLinks second).numSyncLinks)
    (atMostOne : (next.gLinks first).numSyncLinks ≤ 1)
    (firstSync : ∀ j, (next.gLinks first).syncLink j
      = if j < (next.gLinks first).numSyncLinks then some second else none)
    (secondSync : ∀ j, (next.gLinks second).syncLink j
      = if j < (next.gLinks first).numSyncLinks then some first else none) : next.Sound := by
  have live : ∀ other link, next.Live other link ↔ state.Live other link := by
    intro other link
    unfold Live
    rw [(sessions other).1]
  constructor
  case handles =>
    intro handle link found
    rw [handles] at found
    obtain ⟨isHandle, other, isLive⟩ := sound.handles handle link found
    exact ⟨(same link).2.2.trans isHandle, other, (live other link).mpr isLive⟩
  case used =>
    intro other link isLive
    rw [(same link).1, (same link).2.1]
    exact sound.used other link ((live other link).mp isLive)
  case single =>
    intro other link
    rw [(sessions other).1]
    exact sound.single other link
  case count =>
    intro other
    rw [(sessions other).1, (sessions other).2]
    exact sound.count other
  case paired =>
    intro other link isLive
    have before := (live other link).mp isLive
    by_cases isFirst : link = first
    · subst isFirst
      have here := sound.live_unique before firstLive
      subst here
      rcases Nat.le_one_iff_eq_zero_or_eq_one.mp atMostOne with zero | one
      · exact .inl zero
      · right
        refine ⟨second, one, ?_, (live other second).mpr secondLive, isOther.symm,
          num.symm.trans one, ?_⟩
        · rw [firstSync, one, if_pos Nat.one_pos]
        · rw [secondSync, one, if_pos Nat.one_pos]
    · by_cases isSecond : link = second
      · subst isSecond
        have here := sound.live_unique before secondLive
        subst here
        rcases Nat.le_one_iff_eq_zero_or_eq_one.mp atMostOne with zero | one
        · exact .inl (num.symm.trans zero)
        · right
          refine ⟨first, num.symm.trans one, ?_, (live other first).mpr firstLive, isOther, one, ?_⟩
          · rw [secondSync, one, if_pos Nat.one_pos]
          · rw [firstSync, one, if_pos Nat.one_pos]
      · unfold Paired
        rw [others link isFirst isSecond]
        rcases sound.paired other link before with alone | ⟨peer, one, isPeer, peerLive, rest⟩
        · exact .inl alone
        · right
          have notPaired : ∀ changed ∈ [first, second], peer ≠ changed := by
            rintro changed among rfl
            have here : other = session := by
              rcases mem_cons.mp among with rfl | later
              · exact sound.live_unique peerLive firstLive
              · rw [mem_singleton.mp later] at peerLive
                exact sound.live_unique peerLive secondLive
            subst here
            have listed := closed peer among link before ⟨0, one ▸ Nat.one_pos, isPeer⟩
            rcases mem_cons.mp listed with rfl | later
            · exact isFirst rfl
            · exact isSecond (mem_singleton.mp later)
          have notFirst := notPaired first mem_cons_self
          have notSecond := notPaired second (mem_cons_of_mem _ mem_cons_self)
          refine ⟨peer, one, isPeer, (live other peer).mpr peerLive, rest.1, ?_⟩
          rw [others peer notFirst notSecond]
          exact rest.2
  case rest =>
    intro other link isLive j
    have before := (live other link).mp isLive
    by_cases isFirst : link = first
    · subst isFirst
      intro above
      rw [firstSync, if_neg (Nat.not_lt.mpr above)]
    · by_cases isSecond : link = second
      · subst isSecond
        intro above
        rw [secondSync, num, if_neg (Nat.not_lt.mpr above)]
      · rw [others link isFirst isSecond]
        exact sound.rest other link before j

/-- Only the mode of the session is set. -/
theorem Sound.withSyncMode (session : Nat) (sync : Bool) :
    (state.withSession session { state.sessions session with syncMode := sync }).Sound := by
  have same : ∀ {α : Type} (field : CoreSession → α),
      (∀ old : CoreSession, field { old with syncMode := sync } = field old) → ∀ other,
        field ((state.withSession session { state.sessions session with
          syncMode := sync }).sessions other) = field (state.sessions other) := by
    exact fun field isSame => field_update field (isSame _)
  have links := same CoreSession.links fun _ => rfl
  have numLinks := same CoreSession.numLinks fun _ => rfl
  have live : ∀ other link,
      (state.withSession session { state.sessions session with syncMode := sync }).Live other link
        ↔ state.Live other link := by
    intro other link
    unfold Live
    rw [links]
  constructor
  case handles =>
    intro handle link found
    obtain ⟨isHandle, other, isLive⟩ := sound.handles handle link found
    exact ⟨isHandle, other, (live other link).mpr isLive⟩
  case used => exact fun other link isLive => sound.used other link ((live other link).mp isLive)
  case single =>
    intro other link
    rw [links]
    exact sound.single other link
  case count =>
    intro other
    rw [links, numLinks]
    exact sound.count other
  case paired =>
    intro other link isLive
    rcases sound.paired other link ((live other link).mp isLive) with
      alone | ⟨peer, one, isPeer, peerLive, rest⟩
    · exact .inl alone
    · exact .inr ⟨peer, one, isPeer, (live other peer).mpr peerLive, rest⟩
  case rest => exact fun other link isLive => sound.rest other link ((live other link).mp isLive)

end

/-- One link is configured: it runs alone, as before. -/
theorem resetLinks_one {handle : Int} {link : Nat} (notZero : handle ≠ 0)
    (leads : state.handles handle = some link) (isHandle : (state.gLinks link).linkHdl = handle)
    (alone : (state.gLinks link).numSyncLinks = 0) :
    resetLinks 1 state [handle] = (state, some [link]) := by
  have same : { state.gLinks link with
      numSyncLinks := 0
      syncLink := fun j => if j < 1 - 1 then none else (state.gLinks link).syncLink j }
        = state.gLinks link := by
    rw [← alone]
    simp
  rw [resetLinks, if_neg notZero, leads]
  dsimp only
  rw [if_neg (not_not.mpr isHandle), same]
  simp [withLink, resetLinks]

/-- A link without its sync link. -/
theorem cleared_rest {link : CoreLink} (rest : ∀ k, ¬k < 1 → link.syncLink k = none) :
    { link with
      numSyncLinks := 0
      syncLink := fun k => if k < 1 then none else link.syncLink k }
      = { link with numSyncLinks := 0, syncLink := fun _ => none } := by
  congr 1
  funext k
  split
  case isTrue => rfl
  case isFalse above => exact rest k above

/-- Two links lose their sync links. -/
theorem resetLinks_two {first second : Int} {i j : Nat} (firstNotZero : first ≠ 0)
    (secondNotZero : second ≠ 0) (firstLeads : state.handles first = some i)
    (secondLeads : state.handles second = some j) (isFirst : (state.gLinks i).linkHdl = first)
    (isSecond : (state.gLinks j).linkHdl = second) (isOther : i ≠ j)
    (firstRest : ∀ k, ¬k < 1 → (state.gLinks i).syncLink k = none)
    (secondRest : ∀ k, ¬k < 1 → (state.gLinks j).syncLink k = none) :
    resetLinks 2 state [first, second]
      = ((state.withLink i
            { state.gLinks i with numSyncLinks := 0, syncLink := fun _ => none }).withLink j
          { state.gLinks j with numSyncLinks := 0, syncLink := fun _ => none },
        some [i, j]) := by
  have stillSecond : ∀ changed, (state.withLink i changed).gLinks j = state.gLinks j :=
    fun changed => update_of_ne isOther.symm _ _
  have stillLeads : ∀ changed, (state.withLink i changed).handles second = some j :=
    fun _ => secondLeads
  rw [← cleared_rest firstRest, ← cleared_rest secondRest]
  simp only [resetLinks, if_neg firstNotZero, if_neg secondNotZero, firstLeads, isFirst,
    stillLeads, stillSecond, isSecond, ne_eq, not_true_eq_false, if_false, map_some]

theorem Sound.syncConfig (sound : state.Sound) {session : Nat} {sync : Bool} {numLinks : Int}
    {first second : Int} (ofSession : state.OfSession session ([first, second].take numLinks.toNat))
    (closed : numLinks ≤ maxLinksPerSession → first ≠ 0 → second ≠ 0 →
      state.Closed session (state.linksOf ([first, second].take numLinks.toNat))) :
    (state.syncConfig session sync numLinks first second).Sound := by
  unfold CrmState.syncConfig
  split
  case isTrue => exact sound
  case isFalse accepted =>
    rw [not_or, Int.not_lt, Int.not_lt] at accepted
    split
    case isTrue => exact sound
    case isFalse handles =>
      rw [not_or] at handles
      have closed := closed accepted.2 handles.1 handles.2
      have three : numLinks.toNat = 0 ∨ numLinks.toNat = 1 ∨ numLinks.toNat = 2 := by
        have atMost := accepted.2
        unfold maxLinksPerSession at atMost
        omega
      rcases three with zero | one | two
      · rw [zero]
        cases sync <;> exact sound.withSyncMode session _
      · rw [one] at ofSession closed ⊢
        obtain ⟨i, leads, live⟩ := ofSession.2 first mem_cons_self
        have isLinks : state.linksOf [first] = [i] := by simp [linksOf, leads]
        have alone : (state.gLinks i).numSyncLinks = 0 := by
          rcases sound.alone_of_closed live (isLinks ▸ closed) mem_cons_self with
            alone | ⟨peer, among, isOther, _⟩
          · exact alone
          · exact absurd (mem_singleton.mp among) isOther
        have reset := resetLinks_one handles.1 leads (sound.handles first i leads).1 alone
        rw [show [first, second].take 1 = [first] from rfl, reset]
        have unchanged : (range [i].length).foldl (addSyncLinks [i]) state.gLinks
            = state.gLinks := by
          simp [addSyncLinks]
        dsimp only
        rw [unchanged]
        cases sync <;> exact sound.withSyncMode session _
      · rw [two] at ofSession closed ⊢
        obtain ⟨i, firstLeads, firstLive⟩ := ofSession.2 first mem_cons_self
        obtain ⟨j, secondLeads, secondLive⟩ := ofSession.2 second (mem_cons_of_mem _ mem_cons_self)
        have isFirst := (sound.handles first i firstLeads).1
        have isSecond := (sound.handles second j secondLeads).1
        have isOther : i ≠ j := by
          rintro rfl
          have sameHandle : first = second := isFirst.symm.trans isSecond
          exact absurd ofSession.1 (by simp [sameHandle])
        have isLinks : state.linksOf [first, second] = [i, j] := by
          simp [linksOf, firstLeads, secondLeads]
        have atRest : ∀ link, state.Live session link → ∀ k, ¬k < 1 →
            (state.gLinks link).syncLink k = none := by
          intro link live k above
          apply sound.rest session link live
          rcases sound.paired session link live with alone | ⟨_, one, _⟩
          · rw [alone]
            exact Nat.zero_le k
          · rw [one]
            exact Nat.not_lt.mp above
        have reset := resetLinks_two handles.1 handles.2 firstLeads secondLeads isFirst isSecond
          isOther (atRest i firstLive) (atRest j secondLive)
        rw [show [first, second].take 2 = [first, second] from rfl, isLinks] at closed
        rw [show [first, second].take 2 = [first, second] from rfl, reset]
        apply sound.pair firstLive secondLive isOther closed
        · cases sync <;> rfl
        · intro other
          by_cases isHere : other = session
          · subst isHere
            cases sync <;> simp [withLink]
          · cases sync <;> simp [withLink, isHere]
        · intro link notFirst notSecond
          cases sync <;> simp [withLink, addSyncLinks, range_succ, notFirst, notSecond]
        · intro link
          by_cases isI : link = i
          · cases sync <;> simp [withLink, addSyncLinks, range_succ, isI, isOther]
          · by_cases isJ : link = j
            · cases sync <;> simp [withLink, addSyncLinks, range_succ, isJ, isOther.symm]
            · cases sync <;> simp [withLink, addSyncLinks, range_succ, isI, isJ]
        · cases sync <;> simp [withLink, addSyncLinks, range_succ, isOther, isOther.symm]
        · cases sync <;> simp [withLink, addSyncLinks, range_succ, isOther, isOther.symm]
        · intro k
          cases k <;> cases sync <;> simp [withLink, addSyncLinks, range_succ, isOther]
        · intro k
          cases k <;> cases sync <;>
            simp [withLink, addSyncLinks, range_succ, isOther, isOther.symm]

theorem Sound.step (sound : state.Sound) {call : Call} (permitted : state.LeavesNoPeer call) :
    (state.step call).Sound := by
  obtain ⟨wellFormed, closed⟩ := permitted
  cases call with
  | link session inQ handle success => exact sound.link session inQ success wellFormed
  | unlink session handle => exact sound.unlink wellFormed closed
  | syncConfig session sync numLinks first second => exact sound.syncConfig wellFormed closed

/-- As long as links are unlinked and configured together with those that run in sync with
them, the sync links of every live link are live links of its session that have it among
theirs. -/
theorem syncGraph_of_leavesNoPeer {final : CrmState}
    (run : Reaches (guarded LeavesNoPeer step) new final) : final.SyncGraph := by
  have sound : final.Sound := by
    apply run.invariant sound_new
    rintro state call next sound ⟨permitted, rfl⟩
    exact sound.step permitted
  exact sound.syncGraph

/-! ## Two links -/

/-- Two links of a session with the handles `1` and `2`. -/
def twoLinks : List Call :=
  [.link 0 true (some 1) true, .link 0 true (some 2) true]

theorem allowed_twoLinks : Allowed LeavesNoPeer step new twoLinks := by
  refine ⟨⟨?_, trivial⟩, ⟨?_, trivial⟩, trivial⟩
  · rintro _ ⟨⟩
    exact ⟨by decide, rfl⟩
  · rintro _ ⟨⟩
    exact ⟨by decide, by decide⟩

/-- The two links run in sync, then alone again, and the first one is unlinked. -/
def pairedRun : List Call :=
  twoLinks ++ [.syncConfig 0 true 2 1 2, .syncConfig 0 false 2 1 2, .unlink 0 1]

theorem ofSession_twoLinks {state : CrmState} (firstLeads : state.handles 1 = some 0)
    (secondLeads : state.handles 2 = some 1)
    (links : (state.sessions 0).links = [some 0, some 1, none, none]) :
    state.OfSession 0 [1, 2] := by
  constructor
  · decide
  · intro handle among
    simp only [mem_cons, not_mem_nil, or_false] at among
    rcases among with rfl | rfl
    · exact ⟨0, firstLeads, by simp [Live, links]⟩
    · exact ⟨1, secondLeads, by simp [Live, links]⟩

theorem allowed_pairedRun : Allowed LeavesNoPeer step new pairedRun := by
  apply allowed_twoLinks.append
  have all : ∀ state : CrmState, (state.sessions 0).links = [some 0, some 1, none, none] →
      state.Closed 0 [0, 1] := by
    intro state links link _ peer live _
    simpa [Live, links] using live
  refine ⟨⟨?_, fun _ _ _ => ?_⟩, ⟨?_, fun _ _ _ => ?_⟩, ⟨⟨?_, ?_⟩, ?_⟩, trivial⟩
  · exact ofSession_twoLinks (by decide +kernel) (by decide +kernel) (by decide +kernel)
  · exact all _ (by decide +kernel)
  · exact ofSession_twoLinks (by decide +kernel) (by decide +kernel) (by decide +kernel)
  · exact all _ (by decide +kernel)
  · decide
  · intro handle among
    rw [mem_singleton.mp among]
    exact ⟨0, by decide +kernel, by decide +kernel⟩
  · rintro link among peer live ⟨k, below, _⟩
    have links : some peer ∈ [some 0, some 1, none, none] := live
    simp only [mem_cons, not_mem_nil, some.injEq, reduceCtorEq, or_false] at links
    rcases links with rfl | rfl
    · exact absurd below (Nat.not_lt_zero k)
    · exact absurd below (Nat.not_lt_zero k)

theorem syncGraph_pairedRun : (pairedRun.foldl step new).SyncGraph :=
  syncGraph_of_leavesNoPeer (Reaches.foldl allowed_pairedRun)

/-- One of two links that run in sync is unlinked. -/
def abandonedRun : List Call :=
  twoLinks ++ [.syncConfig 0 true 2 1 2, .unlink 0 1]

/-- The other one still counts a sync link, but has none. -/
theorem not_syncGraph :
    ¬∀ final, Reaches (guarded WellFormed step) new final → final.SyncGraph := by
  intro always
  have allowed : Allowed WellFormed step new abandonedRun := by
    apply (allowed_twoLinks.mono fun _ _ => And.left).append
    refine ⟨?_, ⟨?_, ?_⟩, trivial⟩
    · exact ofSession_twoLinks (by decide +kernel) (by decide +kernel) (by decide +kernel)
    · decide
    · intro handle among
      rw [mem_singleton.mp among]
      exact ⟨0, by decide +kernel, by decide +kernel⟩
  have graph := always _ (Reaches.foldl allowed)
  obtain ⟨peer, isPeer, _⟩ := graph.entries 0 1 (by decide +kernel) 0 (by decide +kernel)
  cases isPeer

end CrmState

end Sm8650.Crm
