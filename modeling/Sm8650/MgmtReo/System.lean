import Sm8650.MgmtReo.Entry
import Sm8650.MgmtReo.Lists
import Sm8650.Transition.Reach

/-!
# Management frame reordering: the system

Any number of threads run the sections of the reorder core in any order. A thread that
releases holds `frame_release_lock` from taking an entry off the egress list until the
frame is handed up, so at most one entry is between the two.
-/

namespace Sm8650.MgmtReo

open Transition

/-- The frames that are alive: released last, in the egress list, in the ingress list. -/
def ReoContext.alive (ctx : ReoContext) : List ReoParams :=
  ctx.lastReleasedFrame.toList ++ (framesOf ctx.egressList ++ framesOf ctx.ingressList)

/-- The reorder context, the entry in the hands of the releasing thread, the frames
handed up so far and whether a check or an assertion has failed. -/
structure ReoSystem where
  ctx : ReoContext
  releasing : Option ListEntry
  handedUp : List ReoParams
  checkFailed : Bool

/-- One section. -/
inductive Event
  | arrive (arrival : Arrival)
  | ageout (curTs : BitVec 64)
  | move
  | release
  | sendUp

namespace ReoSystem

/-- No frame seen yet. -/
def initial : ReoSystem :=
  { ctx :=
      { hostSnapshot := fun _ => { valid := false, mgmtPktCtr := 0, globalTimestamp := 0 }
        ingressList := []
        egressList := []
        lastReleasedFrame := none }
    releasing := none
    handedUp := []
    checkFailed := false }

def step (config : Config) (sys : ReoSystem) : Event → ReoSystem
  | .arrive arrival =>
    { sys with
      ctx := (algoEntry config sys.ctx arrival).ctx
      checkFailed :=
        sys.checkFailed || (algoEntry config sys.ctx arrival).status.checkFailed }
  | .ageout curTs => { sys with ctx := ageoutEntriesIngressList config curTs sys.ctx }
  | .move =>
    { sys with
      ctx := (moveEntriesIngressToEgressList config sys.ctx).2
      checkFailed :=
        sys.checkFailed || (moveEntriesIngressToEgressList config sys.ctx).1.checkFailed }
  | .release =>
    -- `frame_release_lock` is free.
    if sys.releasing.isNone then
      { sys with
        ctx := (releaseEgressListEntry sys.ctx).2.1
        releasing := (releaseEgressListEntry sys.ctx).2.2
        checkFailed := sys.checkFailed || (releaseEgressListEntry sys.ctx).1.checkFailed }
    else
      sys
  | .sendUp =>
    match sys.releasing with
    | some entry =>
      { sys with
        releasing := none
        handedUp :=
          if listEntrySendUp entry = .success then sys.handedUp ++ [entry.rxParams]
          else sys.handedUp
        checkFailed := sys.checkFailed || (listEntrySendUp entry).checkFailed }
    | none => sys

end ReoSystem

end Sm8650.MgmtReo
