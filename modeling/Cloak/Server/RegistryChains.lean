import Cloak.Lib.HList

set_option autoImplicit false

/-! # The registry's three chains (`registry.c`)

The registry as it is in memory: every entry has its links in the key chain of its pair, in the uid
chain of its uid and, once it is dead, in the dead chain. The hash under the registry's key is a
parameter, so nothing here depends on where an entry lands.

Two of the calls run a callback in the middle, from which the registry may be called again: the
owner's `on_broken`, with the entry marked dead and the sweep not armed yet, and `on_closing`, with
the entry unlinked and not freed yet. `stack` holds the calls that wait for their callback, the
innermost first, and each step is what the code does up to the next callback or to the end. A session
tells that it is broken from a timer of its own, so this and the sweep happen only when no call is
under way.

`unlinked` and `freed` record the entries that were, and `late` the entries that were created when the
registry had already been destroyed. -/

namespace Cloak

open Lib

/-- `struct cloak_registry_entry`, without its links and the session. `broken` is whether the session
    has fired `on_broken`. -/
structure RegistryNode where
  uid : List UInt8
  sessionId : UInt32
  dead : Bool
  broken : Bool
  late : Bool
deriving DecidableEq, Repr, Inhabited

/-- `cloak_server_registry_t`. An entry is its address, and `entries` has those that are allocated. -/
structure ChainedRegistry where
  keyChains : HList Nat Nat
  uidChains : HList Nat Nat
  deadChain : HList Unit Nat
  entries : Nat → Option RegistryNode
  nEntries : Nat
  nDead : Nat
  sweepTimer : Bool
  destroyed : Bool
  nextAddress : Nat
  unlinked : List Nat
  freed : List Nat

/-- `CLOAK_REGISTRY_MAX_SESSIONS`. -/
def registryMaxSessions : Nat := 1024

/-- `CLOAK_REGISTRY_KEY_BUCKETS`. -/
def registryKeyBuckets : Nat := 2048

/-- `CLOAK_REGISTRY_UID_BUCKETS`. -/
def registryUidBuckets : Nat := 1024

/-- `registry_key_bucket`. -/
def registryKeyBucket (hash : List UInt8 → UInt64) (uid : List UInt8) (sessionId : UInt32) : Nat :=
  (hash (uid ++ [sessionId.toUInt8, (sessionId >>> 8).toUInt8, (sessionId >>> 16).toUInt8,
    (sessionId >>> 24).toUInt8])).toNat % registryKeyBuckets

/-- `registry_uid_bucket`. -/
def registryUidBucket (hash : List UInt8 → UInt64) (uid : List UInt8) : Nat :=
  (hash uid).toNat % registryUidBuckets

namespace ChainedRegistry

/-- `cloak_server_registry_init`. -/
def init : ChainedRegistry :=
  ⟨.empty, .empty, .empty, fun _ => none, 0, 0, false, false, 0, [], []⟩

variable (hash : List UInt8 → UInt64) (r : ChainedRegistry)

/-- The entry at an address. -/
def node (a : Nat) : RegistryNode := (r.entries a).getD default

/-- `registry_entry_link`. -/
def link (a : Nat) : ChainedRegistry :=
  { r with
    keyChains := r.keyChains.add (registryKeyBucket hash (r.node a).uid (r.node a).sessionId) a
    uidChains := r.uidChains.add (registryUidBucket hash (r.node a).uid) a
    nEntries := r.nEntries + 1 }

/-- `registry_entry_unlink`. -/
def unlink (a : Nat) : ChainedRegistry :=
  { r with
    keyChains := r.keyChains.del a
    uidChains := r.uidChains.del a
    deadChain := if (r.node a).dead then r.deadChain.del a else r.deadChain
    nDead := if (r.node a).dead then r.nDead - 1 else r.nDead
    nEntries := r.nEntries - 1
    unlinked := a :: r.unlinked }

/-- `registry_mark_dead`. -/
def markDead (a : Nat) : ChainedRegistry :=
  { r with
    entries := Function.update r.entries a (some { r.node a with dead := true })
    deadChain := r.deadChain.add () a
    nDead := r.nDead + 1 }

/-- The session of the entry fires `on_broken`, of which `registry_mark_dead` is the first thing. -/
def breakEntry (a : Nat) : ChainedRegistry :=
  { r with
    entries := Function.update r.entries a (some { r.node a with broken := true }) }.markDead a

/-- `registry_free_entry`. -/
def freeEntry (a : Nat) : ChainedRegistry :=
  { r with entries := Function.update r.entries a none, freed := a :: r.freed }

/-- `registry_find_live`. -/
def findLive (uid : List UInt8) (sessionId : UInt32) : Option Nat :=
  (r.keyChains.walk r.nextAddress (.head (registryKeyBucket hash uid sessionId))).find? fun a =>
    !(r.node a).dead && (r.node a).sessionId = sessionId && (r.node a).uid = uid

/-- The loops of the sweep and of `cloak_server_registry_destroy`: as long as `pick` finds an entry it
    is unlinked and freed. -/
def drain (pick : ChainedRegistry → Option Nat) : Nat → ChainedRegistry → ChainedRegistry
  | 0, r => r
  | fuel + 1, r =>
    match pick r with
    | none => r
    | some a => drain pick fuel ((r.unlink a).freeEntry a)

/-- `registry_sweep_dead_entries`. -/
def sweepDeadEntries : ChainedRegistry := drain (fun r => r.deadChain.head ()) r.nextAddress r

/-- `registry_sweep_timer_cb`. -/
def sweepTimerCb : ChainedRegistry := { r with sweepTimer := false }.sweepDeadEntries

/-- `registry_arm_sweep`. -/
def armSweep (timerOk : Bool) : ChainedRegistry :=
  if r.destroyed then r
  else if r.sweepTimer then r
  else if timerOk then { r with sweepTimer := true }
  else r.sweepDeadEntries

/-- The loop of `cloak_server_registry_destroy` over bucket `i`. -/
def drainBucket (r : ChainedRegistry) (i : Nat) : ChainedRegistry :=
  drain (fun r => r.keyChains.head i) r.nextAddress r

/-- What `cloak_server_registry_destroy` does about a pending sweep. -/
def finishSweep : ChainedRegistry :=
  if r.sweepTimer then { r.sweepDeadEntries with sweepTimer := false } else r

/-- `cloak_server_registry_destroy`. -/
def destroy : ChainedRegistry :=
  (List.range registryKeyBuckets).foldl drainBucket { r with destroyed := true }.finishSweep

/-- The entry a call creates. -/
def allocate (uid : List UInt8) (sessionId : UInt32) : ChainedRegistry :=
  { r with
    entries := Function.update r.entries r.nextAddress
      (some ⟨uid, sessionId, false, false, r.destroyed⟩)
    nextAddress := r.nextAddress + 1 }

/-- `cloak_server_registry_get_or_create`, with whether `malloc` and `cloak_session_init` succeed. -/
def getOrCreate (uid : List UInt8) (sessionId : UInt32) (allocOk sessionOk : Bool) :
    ChainedRegistry :=
  match r.findLive hash uid sessionId with
  | some _ => r
  | none =>
    if registryMaxSessions ≤ r.nEntries then r
    else if !allocOk then r
    else if !sessionOk then r
    else (r.allocate uid sessionId).link hash r.nextAddress

/-- `cloak_server_registry_close`. -/
def close (uid : List UInt8) (sessionId : UInt32) : ChainedRegistry :=
  match r.findLive hash uid sessionId with
  | none => r
  | some a => (r.unlink a).freeEntry a

/-- What a turn of `cloak_server_registry_close_all_for_uid` looks for, dead or not. -/
def firstOfUid (uid : List UInt8) : Option Nat :=
  (r.uidChains.walk r.nextAddress (.head (registryUidBucket hash uid))).find? fun a =>
    (r.node a).uid = uid

end ChainedRegistry

/-- A call that waits for its callback. -/
inductive RegistryFrame where
  | closing (a : Nat) (uid : List UInt8)
  | broken (a : Nat)
deriving DecidableEq, Repr

/-- The registry and the calls under way in it. -/
structure RegistryState where
  reg : ChainedRegistry
  stack : List RegistryFrame

/-- What can happen to the registry: the four calls, the return of the innermost callback, the break of
    the session of an entry, and the sweep's timer. -/
inductive RegistryOp where
  | getOrCreate (uid : List UInt8) (sessionId : UInt32) (allocOk sessionOk : Bool)
  | close (uid : List UInt8) (sessionId : UInt32)
  | closeAllForUid (uid : List UInt8)
  | destroy
  | ret (timerOk : Bool)
  | broken (a : Nat)
  | sweep
deriving DecidableEq, Repr

namespace RegistryState

variable (hash : List UInt8 → UInt64)

def init : RegistryState := ⟨.init, []⟩

/-- One turn of the loop of `cloak_server_registry_close_all_for_uid`, up to its callback. Where
    `on_closing` is `NULL` the callback is one that returns at once. -/
def closeTurn (st : RegistryState) (uid : List UInt8) : RegistryState :=
  match st.reg.firstOfUid hash uid with
  | none => st
  | some a => ⟨st.reg.unlink a, .closing a uid :: st.stack⟩

/-- `registry_on_session_broken`, up to its callback. -/
def onBroken (st : RegistryState) (a : Nat) : RegistryState :=
  ⟨st.reg.breakEntry a, .broken a :: st.stack⟩

/-- One thing that happens, if it can. -/
def step (st : RegistryState) : RegistryOp → Option RegistryState
  | .getOrCreate uid sessionId allocOk sessionOk =>
    some { st with reg := st.reg.getOrCreate hash uid sessionId allocOk sessionOk }
  | .close uid sessionId => some { st with reg := st.reg.close hash uid sessionId }
  | .closeAllForUid uid => some (closeTurn hash st uid)
  | .destroy => some { st with reg := st.reg.destroy }
  | .ret timerOk =>
    match st.stack with
    | [] => none
    | .closing a uid :: rest => some (closeTurn hash ⟨st.reg.freeEntry a, rest⟩ uid)
    | .broken _ :: rest => some ⟨st.reg.armSweep timerOk, rest⟩
  | .broken a =>
    if st.stack = [] ∧ (st.reg.entries a).isSome ∧ (st.reg.node a).broken = false then
      some (st.onBroken a)
    else none
  | .sweep =>
    if st.stack = [] ∧ st.reg.sweepTimer then some { st with reg := st.reg.sweepTimerCb } else none

/-- A run. -/
def run (st : RegistryState) (ops : List RegistryOp) : Option RegistryState :=
  ops.foldlM (step hash) st

/-- The entries that are unlinked and wait for `on_closing`. -/
def closing (st : RegistryState) : List Nat :=
  st.stack.filterMap fun
    | .closing a _ => some a
    | .broken _ => none

/-- No broken callback is under way. -/
def OutsideBroken (st : RegistryState) : Prop := ∀ a, .broken a ∉ st.stack

end RegistryState

end Cloak
