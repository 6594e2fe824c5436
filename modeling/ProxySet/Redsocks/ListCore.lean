import ProxySet.Lib.CircularList

/-!
The lists of `redsocks.c`, which `list.h` keeps: the instances, and the clients of each.  An
instance and a client are blocks that `calloc` hands out and `free` takes back, with the list heads
as fields in them.
-/

namespace ProxySet.Blocks

open CircularList

/-- Where a pointer to a list head may lead; the static head of `instances` is in no block. -/
inductive Place where
  | null
  | poison1
  | poison2
  | instances
  | list (block : Nat)
  | clients (block : Nat)
deriving DecidableEq, Repr

abbrev Heap := Memory Place

/-- `LIST_HEAD_INIT(instances)` -/
def atStart : Heap
  | .instances => some ⟨.instances, .instances⟩
  | _ => none

def callocInstance (block : Nat) (heap : Heap) : Heap
  | .list other => if other = block then some ⟨.null, .null⟩ else heap (.list other)
  | .clients other => if other = block then some ⟨.null, .null⟩ else heap (.clients other)
  | place => heap place

def callocClient (block : Nat) (heap : Heap) : Heap
  | .list other => if other = block then some ⟨.null, .null⟩ else heap (.list other)
  | place => heap place

/-- There is no result for a block that is not in use. -/
def free (block : Nat) (heap : Heap) : Option Heap :=
  (heap (.list block)).map fun _ place =>
    match place with
    | .list other => if other = block then none else heap (.list other)
    | .clients other => if other = block then none else heap (.clients other)
    | place => heap place

/-- `container_of` a `list` field. -/
def Place.block : Place → Option Nat
  | .list block => some block
  | _ => none

def initListHead : Place → Heap → Option Heap := makeHead

def listAdd : Place → Place → Heap → Option Heap := insertFirst

def listDel : Place → Heap → Option Heap := remove .poison1 .poison2

def listEmpty : Place → Heap → Option Bool := isAlone

/-- How `redsocks_init_instance` ends; when it fails, it may have a socket of its own to close. -/
inductive InitResult where
  | listening
  | failed (socket : Bool)
deriving DecidableEq, Repr

/-- What is not in the blocks: how the start of each instance ends, whether an instance has a
listener and how many buffers a client has when they go, and the steps a loop may take. -/
structure Env where
  init : Nat → InitResult
  listener : Nat → Bool
  buffers : Nat → Nat
  fuel : Nat

variable (env : Env)

/-- `redsocks_close_internal`, which looks through the instances for one that is backing off. -/
def redsocksClose (heap : Heap) : Option Heap :=
  (visits env.fuel .instances heap).map fun _ => heap

def redsocksCloseIf (opened : Bool) (heap : Heap) : Option Heap :=
  if opened then redsocksClose env heap else some heap

def redsocksCloses : Nat → Heap → Option Heap
  | 0, heap => some heap
  | count + 1, heap => do
      let closed ← redsocksClose env heap
      redsocksCloses count closed

/-- `redsocks_onenter` and, at the end of the section, `redsocks_onexit`. -/
def redsocksSection (block : Nat) (heap : Heap) : Option Heap := do
  let listed ← initListHead (.list block) (callocInstance block heap)
  let entered ← initListHead (.clients block) listed
  listAdd (.list block) .instances entered

def redsocksDropClient (client : Nat) (heap : Heap) : Option Heap := do
  let closed ← redsocksCloses env (env.buffers client) heap
  let left ← listDel (.list client) closed
  free client left

/-- `joined` tells whether the client comes as far as `list_add`. -/
def redsocksAcceptClient (self client : Nat) (joined : Bool) (heap : Heap) : Option Heap := do
  let made ← initListHead (.list client) (callocClient client heap)
  if joined then listAdd (.list client) (.clients self) made
  else do
    let dropped ← redsocksDropClient env client made
    redsocksClose env dropped

def dropEach (place : Place) (heap : Heap) : Option (Bool × Heap) := do
  let client ← place.block
  let dropped ← redsocksDropClient env client heap
  return (false, dropped)

def dropClients (inst : Nat) (heap : Heap) : Option Heap := do
  let empty ← listEmpty (.clients inst) heap
  if empty then some heap
  else (each (dropEach env) env.fuel (.clients inst) heap).map Prod.snd

def redsocksFiniInstance (inst : Nat) (heap : Heap) : Option Heap := do
  let alone ← dropClients env inst heap
  let stopped ← redsocksCloseIf env (env.listener inst) alone
  let left ← listDel (.list inst) stopped
  free inst left

def redsocksInitInstance (inst : Nat) (heap : Heap) : Option (Bool × Heap) :=
  match env.init inst with
  | .listening => some (false, heap)
  | .failed socket => do
      let left ← redsocksFiniInstance env inst heap
      let closed ← redsocksCloseIf env socket left
      return (true, closed)

def finiEach (place : Place) (heap : Heap) : Option (Bool × Heap) := do
  let inst ← place.block
  let left ← redsocksFiniInstance env inst heap
  return (false, left)

def redsocksFini (heap : Heap) : Option Heap :=
  (each (finiEach env) env.fuel .instances heap).map Prod.snd

def initEach (place : Place) (heap : Heap) : Option (Bool × Heap) := do
  let inst ← place.block
  redsocksInitInstance env inst heap

def redsocksInit (heap : Heap) : Option (Bool × Heap) := do
  let (failed, started) ← each (initEach env) env.fuel .instances heap
  if failed then
    let left ← redsocksFini env started
    return (true, left)
  else return (false, started)

end ProxySet.Blocks
