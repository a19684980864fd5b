import Sm8650.Data.Holders
import Sm8650.Transition.Reach

/-!
# The configuration stores of `cfg.c`

A store is found by the path of its file, counts its users and is freed by the
user that gives it up last. A psoc starts with the global store and moves to a
store of its own when its file is parsed. The sections of `__cfg_stores_lock`,
the operations on `users` and the copy and parse of a store are the steps of any
number of calls, at most one of them a psoc at a time.
-/

namespace Sm8650.Cfg

/-- How the parse of a store's own file went. -/
inductive ParseState
  | unparsed
  | failed
  | succeeded
  deriving DecidableEq, Repr

/-- `struct cfg_value_store`, with the parse of its file on record. -/
structure CfgValueStore (υ : Type) where
  path : String
  values : υ
  users : Int
  parse : ParseState

/-- Where the call of a psoc is. -/
inductive Phase
  | idle
  /-- `cfg_on_psoc_create` has counted the new context. -/
  | creating
  /-- `cfg_psoc_parse` is ahead of `cfg_store_get`. -/
  | getting (path : String)
  /-- `cfg_store_get` found nothing. -/
  | allocating (path : String)
  /-- The store is listed, the copy and the parse are to come. -/
  | filling (store : Nat)
  /-- The store is about to become the one of the psoc. -/
  | adopting (store : Nat)
  /-- `cfg_store_put` is to come; `ok` if `cfg_psoc_parse` returns success after it. -/
  | putting (store : Nat) (ok : Bool)
  /-- `cfg_store_free` has the section ahead. -/
  | removing (store : Nat) (ok : Bool)
  /-- `cfg_store_free` has the two calls of `qdf_mem_free` ahead. -/
  | freeing (store : Nat) (ok : Bool)
  deriving DecidableEq, Repr

/-- A psoc: the store of its context, the call in progress, and whether its
`cfg_psoc_parse` has returned success. -/
structure Psoc where
  ctx : Option Nat
  phase : Phase
  parsed : Bool
  deriving DecidableEq, Repr

/-- A psoc that does not exist. -/
def Psoc.absent : Psoc where
  ctx := none
  phase := .idle
  parsed := false

/-- `__cfg_global_store`. -/
def cfgGlobalStore : Nat := 0

/-- The stores that were ever allocated, `__cfg_stores_list`, how often each store
was freed, and the psocs. -/
structure CfgStores (υ : Type) where
  stores : Nat → CfgValueStore υ
  allocated : Nat
  storesList : List Nat
  freed : Nat → Nat
  psocs : List Psoc

/-- The steps of a call, with what the driver does not decide. -/
inductive CfgStep (υ : Type)
  /-- `cfg_on_psoc_create` is called; `false` if its context cannot be allocated. -/
  | psocCreate (allocated : Bool)
  /-- `cfg_psoc_set_priv` returns. -/
  | setPriv (ok : Bool)
  /-- `cfg_on_psoc_destroy` is called. -/
  | psocDestroy
  /-- `cfg_psoc_parse` is called. -/
  | psocParse (path : String)
  | storeGet
  | storeAlloc (allocated : Bool)
  /-- The global values are copied and the file is parsed over them. -/
  | parseToStore (parsed : υ → υ) (ok : Bool)
  | setStore
  | storePut
  | listRemove
  | memFree

namespace CfgStores

variable {υ : Type}

/-- After `cfg_parse` has set up the global store, with room for some psocs. -/
def init (path : String) (values : υ) (count : Nat) : CfgStores υ where
  stores := fun _ => ⟨path, values, 1, .succeeded⟩
  allocated := 1
  storesList := [cfgGlobalStore]
  freed := fun _ => 0
  psocs := List.replicate count .absent

/-- Writes a store. -/
def setStore (state : CfgStores υ) (store : Nat) (written : CfgValueStore υ) : CfgStores υ :=
  { state with stores := Function.update state.stores store written }

/-- Adds to the users of a store. -/
def addUsers (state : CfgStores υ) (store : Nat) (change : Int) : CfgStores υ :=
  state.setStore store
    { state.stores store with users := (state.stores store).users + change }

/-- Writes a psoc. -/
def setPsoc (state : CfgStores υ) (i : Nat) (psoc : Psoc) : CfgStores υ :=
  { state with psocs := state.psocs.set i psoc }

/-- The first listed store with that path. -/
def find (state : CfgStores υ) (path : String) : Option Nat :=
  state.storesList.find? fun store => path = (state.stores store).path

/-- The end of `cfg_store_put`. -/
def finish (state : CfgStores υ) (i : Nat) (psoc : Psoc) (ok : Bool) : CfgStores υ :=
  state.setPsoc i { psoc with phase := .idle, parsed := psoc.parsed || ok }

/-- `cfg_on_psoc_create` up to `cfg_psoc_set_priv`. -/
def psocCreate (state : CfgStores υ) (i : Nat) (psoc : Psoc) (allocated : Bool) :
    CfgStores υ :=
  if allocated then
    (state.addUsers cfgGlobalStore 1).setPsoc i { psoc with phase := .creating }
  else
    state

/-- `cfg_psoc_parse` up to `cfg_store_get`: a psoc that has a store of its own keeps
it. -/
def psocParse (state : CfgStores υ) (i : Nat) (psoc : Psoc) (store : Nat) (path : String) :
    CfgStores υ :=
  if store = cfgGlobalStore then
    state.setPsoc i { psoc with phase := .getting path }
  else
    state.finish i psoc true

/-- The section of `cfg_store_get`. -/
def storeGet (state : CfgStores υ) (i : Nat) (psoc : Psoc) (path : String) : CfgStores υ :=
  match state.find path with
  | some store => (state.addUsers store 1).setPsoc i { psoc with phase := .adopting store }
  | none => state.setPsoc i { psoc with phase := .allocating path }

/-- `cfg_store_alloc` with its section. -/
def storeAlloc (state : CfgStores υ) (i : Nat) (psoc : Psoc) (path : String)
    (allocated : Bool) : CfgStores υ :=
  if allocated then
    { state.setStore state.allocated
          ⟨path, (state.stores state.allocated).values, 1, .unparsed⟩ with
      allocated := state.allocated + 1
      storesList := state.storesList ++ [state.allocated]
      psocs := state.psocs.set i { psoc with phase := .filling state.allocated } }
  else
    state.finish i psoc false

/-- The copy of the global values and `cfg_ini_parse_to_store`. -/
def parseToStore (state : CfgStores υ) (i : Nat) (psoc : Psoc) (store : Nat)
    (parsed : υ → υ) (ok : Bool) : CfgStores υ :=
  (state.setStore store
    { state.stores store with
      values := parsed (state.stores cfgGlobalStore).values
      parse := if ok then .succeeded else .failed }).setPsoc i
    { psoc with phase := if ok then .adopting store else .putting store false }

/-- `qdf_atomic_dec_and_test` of `cfg_store_put`. -/
def storePut (state : CfgStores υ) (i : Nat) (psoc : Psoc) (store : Nat) (ok : Bool) :
    CfgStores υ :=
  if (state.stores store).users - 1 = 0 then
    (state.addUsers store (-1)).setPsoc i { psoc with phase := .removing store ok }
  else
    (state.addUsers store (-1)).finish i psoc ok

/-- The section of `cfg_store_free`. -/
def listRemove (state : CfgStores υ) (i : Nat) (psoc : Psoc) (store : Nat) (ok : Bool) :
    CfgStores υ :=
  { state.setPsoc i { psoc with phase := .freeing store ok } with
    storesList := state.storesList.erase store }

/-- The end of `cfg_store_free`. -/
def memFree (state : CfgStores υ) (i : Nat) (psoc : Psoc) (store : Nat) (ok : Bool) :
    CfgStores υ :=
  { state.finish i psoc ok with
    freed := Function.update state.freed store (state.freed store + 1) }

/-- A step of the call of one psoc, where that call is at it. -/
def psocStep (state : CfgStores υ) (i : Nat) (psoc : Psoc) :
    Option Nat → Phase → CfgStep υ → Option (CfgStores υ)
  | none, .idle, .psocCreate allocated => some (state.psocCreate i psoc allocated)
  | none, .creating, .setPriv ok =>
    some (state.setPsoc i
      (if ok then { psoc with ctx := some cfgGlobalStore, phase := .idle }
      else { psoc with phase := .putting cfgGlobalStore false }))
  | some store, .idle, .psocDestroy =>
    some (state.setPsoc i ⟨none, .putting store false, false⟩)
  | some store, .idle, .psocParse path => some (state.psocParse i psoc store path)
  | _, .getting path, .storeGet => some (state.storeGet i psoc path)
  | _, .allocating path, .storeAlloc allocated => some (state.storeAlloc i psoc path allocated)
  | _, .filling store, .parseToStore parsed ok =>
    some (state.parseToStore i psoc store parsed ok)
  | _, .adopting store, .setStore =>
    some (state.setPsoc i
      { psoc with ctx := some store, phase := .putting cfgGlobalStore true })
  | _, .putting store ok, .storePut => some (state.storePut i psoc store ok)
  | _, .removing store ok, .listRemove => some (state.listRemove i psoc store ok)
  | _, .freeing store ok, .memFree => some (state.memFree i psoc store ok)
  | _, _, _ => none

/-- A step of the psoc with that number. -/
def step (state : CfgStores υ) (label : Nat × CfgStep υ) : Option (CfgStores υ) :=
  match state.psocs[label.1]? with
  | some psoc => state.psocStep label.1 psoc psoc.ctx psoc.phase label.2
  | none => none

end CfgStores

open Transition

/-- Any interleaving of the calls. -/
def cfgStep (υ : Type) : LabelledStep (CfgStores υ) (Nat × CfgStep υ) :=
  fun state label next => state.step label = some next

end Sm8650.Cfg
