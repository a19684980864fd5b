import Sm8650.Data.Holders
import Sm8650.Fastrpc.Mmap
import Sm8650.Transition.Reach

/-!
# Remote invocations of one FastRPC process

An invocation takes the maps of its buffers one `map_mutex` section each and those of
its handles in one section, waits for the remote side, gives the maps of its output
buffers back, releases what the remote side wrote into the `fdlist`, and is freed.
Any number of invocations interleave at these sections.
-/

namespace Sm8650.Fastrpc

/-- `M_FDLIST` -/
def mFdlist : Nat := 16

/-- A buffer argument with its entries of `fds` and `attrs`. Without an `fds` array
every `fd` is `-1`. -/
structure RemoteBuf where
  fd : BitVec 32
  attr : BitVec 32
  pv : BitVec 64
  len : BitVec 64

/-- A handle argument with its entries of `fds` and `attrs`. -/
structure RemoteHandle where
  fd : BitVec 32
  attr : BitVec 32

/-- Where an invocation is between two sections. -/
inductive Stage where
  /-- `get_args` is at this iteration of the loop over the buffers. -/
  | getArgs (i : Nat)
  /-- `get_args` is over, the remote side has the call. -/
  | sent
  /-- `put_args` is at this iteration of the loop over the output buffers. -/
  | putArgs (i : Nat)
  /-- All that is left is `context_free`. -/
  | bail
  | freed
deriving DecidableEq

/-- `struct smq_invoke_ctx`. The `maps` array is kept in two parts: the entries of
the buffers, and those of the handles, which `context_free` passes over. -/
structure InvokeCtx where
  inbufs : Nat
  lpra : List RemoteBuf
  handles : List RemoteHandle
  maps : List (Option Nat)
  handleMaps : List (Option Nat)
  stage : Stage

/-- What happens inside a section that the driver does not decide: whether a new map
of the argument can be made, whether the user's memory can be written, and what the
remote side left in the `fdlist`. -/
structure Outcome where
  mapped : Nat → Bool
  copied : Bool
  fdlist : List (BitVec 64)

namespace FastrpcFile

/-- The loop of `get_args` over the handles, from the `i`-th argument on, with the
entries made so far: on an error they are given back. -/
def getHandles (file : FastrpcFile) (mapped : Nat → Bool) (i : Nat) :
    List RemoteHandle → List (Option Nat) → FastrpcFile × Option (List (Option Nat))
  | [], taken => (file, some taken)
  | handle :: handles, taken =>
    if handle.fd ≠ -1 then
      match file.mmapCreate handle.fd fastrpcAttrNova 0 0
          (handle.attr &&& fastrpcAttrNomap ≠ 0) (mapped i) with
      | (file, none) => (file.releaseAll taken, none)
      | (file, some id) =>
        (file.takeCtxRef id).getHandles mapped (i + 1) handles (taken ++ [some id])
    else file.getHandles mapped (i + 1) handles (taken ++ [none])

/-- The loop of `put_args` over the `fdlist`: a zero entry ends it, and an entry that
names the descriptor of a map at address zero gives that map back. -/
def putFdlist (file : FastrpcFile) : List (BitVec 64) → FastrpcFile
  | [] => file
  | entry :: fdlist =>
    if entry = 0 then file
    else
      match file.mmapFind (entry.truncate 32) 0 0 false with
      | (_, none) => file.putFdlist fdlist
      | (_, some id) => (file.release id).putFdlist fdlist

end FastrpcFile

namespace InvokeCtx

/-- `context_alloc` -/
def alloc (inbufs outbufs : List RemoteBuf) (handles : List RemoteHandle) : InvokeCtx where
  inbufs := inbufs.length
  lpra := inbufs ++ outbufs
  handles := handles
  maps := (inbufs ++ outbufs).map fun _ => none
  handleMaps := []
  stage := .getArgs 0

/-- The section of `get_args` for one buffer. -/
def getBuf (ctx : InvokeCtx) (file : FastrpcFile) (i : Nat) (arg : RemoteBuf)
    (mapped : Bool) : FastrpcFile × InvokeCtx :=
  if arg.fd ≠ -1 then
    match file.mmapCreate arg.fd arg.attr arg.pv arg.len false mapped with
    | (file, none) => (file, { ctx with stage := .bail })
    | (file, some id) =>
      (file.takeCtxRef id,
        { ctx with maps := ctx.maps.set i (some id), stage := .getArgs (i + 1) })
  else (file, { ctx with stage := .getArgs (i + 1) })

/-- The entries of the handles are read no more and not given back with those of
the buffers. -/
def leaveHandles (ctx : InvokeCtx) : InvokeCtx :=
  { ctx with handleMaps := [] }

/-- The section of `get_args` for the handles: none is mapped when the remote side
has the capability `DMA_HANDLE_REVERSE_RPC_CAP`. -/
def getHandles (ctx : InvokeCtx) (dmaHandleReverseRpcCap : Bool) (file : FastrpcFile)
    (mapped : Nat → Bool) : FastrpcFile × InvokeCtx :=
  let handles := if dmaHandleReverseRpcCap then [] else ctx.handles
  match file.getHandles mapped ctx.lpra.length handles [] with
  | (file, none) => (file, { ctx.leaveHandles with stage := .bail })
  | (file, some taken) => (file, { ctx with handleMaps := taken, stage := .sent })

/-- One iteration of the loop of `put_args` over the output buffers. -/
def putBuf (ctx : InvokeCtx) (file : FastrpcFile) (i : Nat) (entry : Option Nat)
    (copied : Bool) : FastrpcFile × InvokeCtx :=
  match entry with
  | none => (file, { ctx with stage := if copied then .putArgs (i + 1) else .bail })
  | some id =>
    (file.release id, { ctx with maps := ctx.maps.set i none, stage := .putArgs (i + 1) })

/-- The section of `put_args` for the `fdlist`. -/
def putFdlist (ctx : InvokeCtx) (file : FastrpcFile) (fdlist : List (BitVec 64)) :
    FastrpcFile × InvokeCtx :=
  (file.putFdlist (fdlist.take mFdlist), { ctx.leaveHandles with stage := .bail })

/-- The section of `context_free`. -/
def contextFree (ctx : InvokeCtx) (file : FastrpcFile) : FastrpcFile × InvokeCtx :=
  (file.releaseAll ctx.maps, { ctx.leaveHandles with maps := [], stage := .freed })

/-- The next section of an invocation. -/
def advance (ctx : InvokeCtx) (dmaHandleReverseRpcCap : Bool) (file : FastrpcFile)
    (outcome : Outcome) : FastrpcFile × InvokeCtx :=
  match ctx.stage with
  | .getArgs i =>
    match ctx.lpra[i]? with
    | some arg => ctx.getBuf file i arg (outcome.mapped i)
    | none => ctx.getHandles dmaHandleReverseRpcCap file outcome.mapped
  | .sent => (file, { ctx with stage := .putArgs ctx.inbufs })
  | .putArgs i =>
    match ctx.maps[i]? with
    | some entry => ctx.putBuf file i entry outcome.copied
    | none => ctx.putFdlist file outcome.fdlist
  | .bail => ctx.contextFree file
  | .freed => (file, ctx)

/-- The `maps` array of an invocation. -/
def references (ctx : InvokeCtx) : List (Option Nat) :=
  ctx.maps ++ ctx.handleMaps

end InvokeCtx

/-- The process: its maps and every invocation so far. -/
structure Process where
  file : FastrpcFile
  dmaHandleReverseRpcCap : Bool
  ctxs : List InvokeCtx

/-- What can happen next. An invocation may be given up between any two of its
sections: an allocation fails, the remote side is gone, the wait is interrupted. -/
inductive Event where
  | invoke (inbufs outbufs : List RemoteBuf) (handles : List RemoteHandle)
  | advance (i : Nat) (outcome : Outcome)
  | giveUp (i : Nat)

namespace Process

/-- The process after an invocation changed the maps and itself. -/
def put (process : Process) (i : Nat) (result : FastrpcFile × InvokeCtx) : Process :=
  { process with file := result.1, ctxs := process.ctxs.set i result.2 }

/-- One step of the process. -/
def step (process : Process) : Event → Process
  | .invoke inbufs outbufs handles =>
    { process with ctxs := process.ctxs ++ [.alloc inbufs outbufs handles] }
  | .advance i outcome =>
    match process.ctxs[i]? with
    | none => process
    | some ctx => process.put i (ctx.advance process.dmaHandleReverseRpcCap process.file outcome)
  | .giveUp i =>
    match process.ctxs[i]? with
    | none => process
    | some ctx =>
      if ctx.stage = .freed then process
      else process.put i (process.file, { ctx with stage := .bail })

/-- How often the `maps` arrays of the invocations refer to a map; the array of a
freed invocation is empty. -/
def references (process : Process) (id : Nat) : Nat :=
  Data.held (process.ctxs.map InvokeCtx.references) (some id)

end Process

end Sm8650.Fastrpc
