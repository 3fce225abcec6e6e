import Cloak.Lib.Slots
import Cloak.Mux.ValveRuns
import Cloak.Server.RegistryChains
import Cloak.Server.UserManager

set_option autoImplicit false

/-! # The user panel (`userpanel.c`)

The active users as they are in memory: a slot array, hash chains by uid with their links in the
entries, and a count. The hash under the panel's key is a parameter. `malloc` answers with any address
that is not in use, so an address may come back after it was freed; `serial` tells the entries apart
that had the same one.

`cloak_userpanel_terminate` closes the user's sessions in the middle, and each close calls the owner,
who may call the panel again. Before that it may force an upload cycle, which terminates users itself.
`stack` holds the calls under way, the innermost first, with what each has in its local variables, and
`resume` is what the innermost does up to its next call. The owner's code runs where nothing is under
way and where a user's sessions are being closed, and it may call anything there.

What the registry, the manager, the clock and `malloc` answer is part of an operation. A session that
breaks reaches the table through `notifySessionClosed`. `freed` records the entries that were freed. -/

namespace Cloak

open Lib

/-- `CLOAK_USERPANEL_MAX_ACTIVE_USERS`. -/
def userpanelMaxActiveUsers : Nat := registryMaxSessions

/-- `CLOAK_USERPANEL_MAX_QUEUED_USERS`. -/
def userpanelMaxQueuedUsers : Nat := 2 * userpanelMaxActiveUsers

/-- `PANEL_UID_BUCKETS`. -/
def panelUidBuckets : Nat := 256

/-- `panel_uid_bucket`. -/
def panelUidBucket (hash : List UInt8 → UInt64) (uid : List UInt8) : Nat :=
  (hash uid).toNat % panelUidBuckets

/-- `cloak_userpanel_user_t`, without its links. `serial` is the number of entries allocated before. -/
structure PanelUser where
  uid : List UInt8
  upRate : Int
  downRate : Int
  bypass : Bool
  valve : MeteredValve
  terminating : Bool
  serial : Nat
deriving DecidableEq, Repr

/-- `struct panel_queue_entry`. -/
structure PanelQueueEntry where
  uid : List UInt8
  upUsage : Int
  downUsage : Int
deriving DecidableEq, Repr

/-- `cloak_user_status_t`, as the panel fills it in. -/
structure PanelStatus where
  uid : List UInt8
  upUsage : Int
  downUsage : Int
  numSession : Nat
  active : Bool
  timestamp : Int
deriving DecidableEq, Repr

/-- Why there is no user. -/
inductive PanelErr where
  | full
  | alloc
  | manager (e : UserErr)
deriving DecidableEq, Repr

/-- `struct cloak_userpanel`. An entry is its address, and `entries` has those that are allocated. -/
structure UserPanel where
  active : Slots Nat
  uidBuckets : HList Nat Nat
  entries : Nat → Option PanelUser
  nActive : Nat
  queue : List PanelQueueEntry
  terminates : List CloakUserTerminate
  inCycle : Bool
  closed : Bool
  born : Nat
  freed : List Nat

/-- `panel_add_sat`. -/
def panelAddSat (a b : Int) : Int :=
  if 0 < b ∧ i64Max - b < a then i64Max else a + b

/-- What an entry is made of before it has rates. -/
def PanelUser.fresh (uid : List UInt8) (bypass : Bool) (serial : Nat) : PanelUser :=
  ⟨uid, 0, 0, bypass, .zeroed, false, serial⟩

namespace UserPanel

/-- What `cloak_userpanel_open` makes. -/
def init : UserPanel := ⟨fun _ => none, .empty, fun _ => none, 0, [], [], false, false, 0, []⟩

variable (hash : List UInt8 → UInt64) (p : UserPanel)

/-- The entry at an address. -/
def user (a : Nat) : PanelUser := (p.entries a).getD (.fresh [] false 0)

/-- Changes the entry at an address. -/
def modify (a : Nat) (f : PanelUser → PanelUser) : UserPanel :=
  { p with entries := Function.update p.entries a (some (f (p.user a))) }

/-! ## The table -/

/-- `panel_index_add`. -/
def indexAdd (a : Nat) : UserPanel :=
  { p with
    uidBuckets := p.uidBuckets.add (panelUidBucket hash (p.user a).uid) a
    nActive := p.nActive + 1 }

/-- `panel_index_del`. -/
def indexDel (a : Nat) : UserPanel :=
  match p.uidBuckets.pprev a with
  | none => p
  | some _ => { p with uidBuckets := p.uidBuckets.del a, nActive := p.nActive - 1 }

/-- `panel_find`. A chain has no more entries than there are slots. -/
def find (uid : List UInt8) : Option Nat :=
  (p.uidBuckets.walk userpanelMaxActiveUsers (.head (panelUidBucket hash uid))).find? fun a =>
    !(p.user a).terminating && (p.user a).uid = uid

/-- The entry that `panel_new_user` writes at the address it got, with the slot that points to it. -/
def allocate (uid : List UInt8) (bypass : Bool) (slot a : Nat) : UserPanel :=
  { p with
    active := Function.update p.active slot (some a)
    entries := Function.update p.entries a (some (.fresh uid bypass p.born))
    born := p.born + 1 }

/-- `panel_new_user`, with what `malloc` returns. -/
def newUser (uid : List UInt8) (bypass : Bool) (malloc : Option Nat) : UserPanel × Except PanelErr Nat :=
  match p.active.firstFree userpanelMaxActiveUsers with
  | none => (p, .error .full)
  | some slot =>
    match malloc with
    | none => (p, .error .alloc)
    | some a => ((p.allocate uid bypass slot a).indexAdd hash a, .ok a)

/-- `cloak_userpanel_get_user`, with what the manager and `malloc` return and the reading of the valve's
    clock. -/
def getUser (uid : List UInt8) (auth : Except UserErr (I64 × I64)) (malloc : Option Nat) (now : Nat) :
    UserPanel × Except PanelErr Nat :=
  match p.find hash uid with
  | some a => (p, .ok a)
  | none =>
    if userpanelMaxActiveUsers ≤ p.nActive then (p, .error .full)
    else
      match auth with
      | .error e => (p, .error (.manager e))
      | .ok (up, down) =>
        match p.newUser hash uid false malloc with
        | (p', .error e) => (p', .error e)
        | (p', .ok a) =>
          -- the user's upload is what the server receives
          (p'.modify a fun u => { u with
            upRate := up.val
            downRate := down.val
            valve := u.valve.step (.setRates up.val down.val now) }, .ok a)

/-- `cloak_userpanel_get_bypass_user`. -/
def getBypassUser (uid : List UInt8) (malloc : Option Nat) : UserPanel × Except PanelErr Nat :=
  match p.find hash uid with
  | some a => (p, .ok a)
  | none => p.newUser hash uid true malloc

/-- `free`, of an entry. -/
def freeEntry (a : Nat) : UserPanel :=
  { p with entries := Function.update p.entries a none, freed := (p.user a).serial :: p.freed }

/-- The last step of `cloak_userpanel_terminate`. -/
def release (a : Nat) : UserPanel :=
  ({ p with active := p.active.clear userpanelMaxActiveUsers a }.indexDel a).freeEntry a

/-- One turn of the loop of `cloak_userpanel_close`. -/
def closeSlot (p : UserPanel) (i : Nat) : UserPanel :=
  match p.active i with
  | none => p
  | some a => { p.freeEntry a with active := Function.update p.active i none }

/-- `cloak_userpanel_close`. -/
def close : UserPanel :=
  { (List.range userpanelMaxActiveUsers).foldl closeSlot p with
    uidBuckets := .empty
    nActive := 0
    closed := true }

/-! ## The usage queue -/

/-- `panel_queue_slot`: the queue with an entry for `uid`, and where that is. -/
def queueSlot (uid : List UInt8) : Option (List PanelQueueEntry × Nat) :=
  match p.queue.findIdx? fun e => e.uid = uid with
  | some i => some (p.queue, i)
  | none =>
    if p.queue.length = userpanelMaxQueuedUsers then none
    else some (p.queue ++ [⟨uid, 0, 0⟩], p.queue.length)

/-- The end of `panel_drain_user`: what is in the valve goes to the entry `i` of the queue. -/
def moveUsage (a : Nat) (queue : List PanelQueueEntry) (i : Nat) : UserPanel :=
  let (valve, rx, tx) := (p.user a).valve.nullify
  { p.modify a fun u => { u with valve } with
    queue := queue.modify i fun e =>
      { e with upUsage := panelAddSat e.upUsage rx, downUsage := panelAddSat e.downUsage tx } }

/-- `panel_drain_user`, as far as it does not force an upload: there is nothing where the queue has no
    room. -/
def tryDrain (a : Nat) : Option UserPanel :=
  if (p.user a).bypass then some p
  else (p.queueSlot (p.user a).uid).map fun (queue, i) => p.moveUsage a queue i

/-- `panel_drain_user` where it does not force an upload. -/
def drainUser (a : Nat) : UserPanel := (p.tryDrain a).getD p

/-- `panel_has_queued_usage`. -/
def hasQueuedUsage (uid : List UInt8) : Bool :=
  match p.queue.find? fun e => e.uid = uid with
  | none => false
  | some e => e.upUsage ≠ 0 || e.downUsage ≠ 0

/-! ## The upload cycle -/

/-- One turn of the first loop of `panel_cycle_body`. -/
def drainSlot (p : UserPanel) (i : Nat) : UserPanel :=
  match p.active i with
  | none => p
  | some a => if (p.user a).terminating then p else p.drainUser a

/-- The first loop of `panel_cycle_body`. -/
def drainAll : UserPanel := (List.range userpanelMaxActiveUsers).foldl drainSlot p

/-- What `panel_cycle_body` reports about an entry of the queue. -/
def status (countForUid : List UInt8 → Nat) (now : Int) (e : PanelQueueEntry) : PanelStatus where
  uid := e.uid
  upUsage := e.upUsage
  downUsage := e.downUsage
  numSession := if (p.find hash e.uid).isSome then countForUid e.uid else 0
  active := (p.find hash e.uid).isSome
  timestamp := now

/-- The user in slot `i`, if `panel_reap_sessionless` terminates it. -/
def sessionless (countForUid : List UInt8 → Nat) (i : Nat) : Option Nat :=
  match p.active i with
  | none => none
  | some a =>
    if (p.user a).bypass ∨ (p.user a).terminating then none
    else if countForUid (p.user a).uid ≠ 0 then none
    else if p.hasQueuedUsage (p.user a).uid then none
    else if (p.user a).valve.rx ≠ 0 ∨ (p.user a).valve.tx ≠ 0 then none
    else some a

end UserPanel

/-- A call under way. The entry of a termination comes with its serial. -/
inductive PanelFrame where
  /-- `cloak_userpanel_terminate`, behind the upload its drain forced. -/
  | flushing (a serial : Nat)
  /-- `cloak_userpanel_terminate`, closing the sessions. -/
  | closing (a serial : Nat)
  /-- `panel_run_cycle`, at the start of the body. -/
  | cycle
  /-- `panel_cycle_body`, at the terminate `i`. -/
  | terms (i : Nat)
  /-- `panel_reap_sessionless`, at the slot `i`. -/
  | reaping (i : Nat)
deriving DecidableEq, Repr

/-- The panel and the calls under way in it. -/
structure PanelState where
  panel : UserPanel
  stack : List PanelFrame

/-- What the registry, the clock and the manager answer. -/
structure PanelWorld where
  countForUid : List UInt8 → Nat
  now : Int
  upload : List PanelStatus → Except UserErr (List CloakUserTerminate)

/-- What can happen to the panel: the owner's calls, traffic through the valve of a user, and the
    innermost call going on. `uploadNow` is also what the timer calls. -/
inductive PanelOp where
  | getUser (uid : List UInt8) (auth : Except UserErr (I64 × I64)) (malloc : Option Nat) (now : Nat)
  | getBypassUser (uid : List UInt8) (malloc : Option Nat)
  | terminate (a : Nat)
  | notifySessionClosed (uid : List UInt8) (count : Nat)
  | uploadNow
  | traffic (a : Nat) (call : ValveCall)
  | close
  | resume (world : PanelWorld)

namespace PanelState

variable (hash : List UInt8 → UInt64) (st : PanelState)

def init : PanelState := ⟨.init, []⟩

/-- `panel_run_cycle`, up to its body. -/
def runCycle : PanelState := ⟨{ st.panel with inCycle := true }, .cycle :: st.stack⟩

/-- The entry of a termination. -/
def frame (make : Nat → Nat → PanelFrame) (a : Nat) : PanelFrame := make a (st.panel.user a).serial

/-- `cloak_userpanel_terminate`, up to the close of the sessions or to the upload its drain forces. -/
def terminate (a : Nat) : PanelState :=
  if (st.panel.user a).terminating then st
  else
    let p := st.panel.modify a fun u => { u with terminating := true }
    match p.tryDrain a with
    | some p' => ⟨p', st.frame .closing a :: st.stack⟩
    | none =>
      -- a full queue: inside a cycle what is in the valve is lost
      if p.inCycle then ⟨p, st.frame .closing a :: st.stack⟩
      else runCycle ⟨p, st.frame .flushing a :: st.stack⟩

/-- `cloak_userpanel_notify_session_closed`, with `cloak_server_registry_count_for_uid`. -/
def notifySessionClosed (uid : List UInt8) (count : Nat) : PanelState :=
  match st.panel.find hash uid with
  | none => st
  | some a => if 0 < count then st else st.terminate a

/-- `cloak_userpanel_upload_now`. -/
def uploadNow : PanelState := if st.panel.inCycle then st else st.runCycle

/-- `panel_cycle_body` up to its loop over the terminates, or to the reap that it ends with. -/
def cycleBody (world : PanelWorld) : PanelState :=
  let p := st.panel.drainAll
  if p.queue = [] then ⟨p, .reaping 0 :: st.stack⟩
  else
    match world.upload (p.queue.map (p.status hash world.countForUid world.now)) with
    | .error _ => ⟨p, .reaping 0 :: st.stack⟩
    | .ok terminates =>
      ⟨{ p with queue := [], terminates := terminates.take userpanelMaxQueuedUsers },
        .terms 0 :: st.stack⟩

/-- One turn of the loop over the terminates. -/
def termsTurn (i : Nat) : PanelState :=
  match st.panel.terminates[i]? with
  | none => { st with stack := .reaping 0 :: st.stack }
  | some t =>
    let st' := { st with stack := .terms (i + 1) :: st.stack }
    match st.panel.find hash t.uid with
    | none => st'
    | some a => st'.terminate a

/-- One turn of `panel_reap_sessionless`. The cycle ends behind the last slot. -/
def reapTurn (world : PanelWorld) (i : Nat) : PanelState :=
  if i < userpanelMaxActiveUsers then
    let st' := { st with stack := .reaping (i + 1) :: st.stack }
    match st.panel.sessionless world.countForUid i with
    | none => st'
    | some a => st'.terminate a
  else { st with panel := { st.panel with inCycle := false } }

/-- The innermost call goes on. -/
def resume (world : PanelWorld) : Option PanelState :=
  match st.stack with
  | [] => none
  | .flushing a serial :: rest => some ⟨st.panel.drainUser a, .closing a serial :: rest⟩
  | .closing a _ :: rest => some ⟨st.panel.release a, rest⟩
  | .cycle :: rest => some (cycleBody hash ⟨st.panel, rest⟩ world)
  | .terms i :: rest => some (termsTurn hash ⟨st.panel, rest⟩ i)
  | .reaping i :: rest => some (reapTurn ⟨st.panel, rest⟩ world i)

/-- The owner's code runs. -/
def ownerRuns : Bool :=
  match st.stack with
  | [] => !st.panel.closed
  | .closing _ _ :: _ => true
  | _ => false

/-- `malloc` returns nothing that is in use. -/
def canReturn (malloc : Option Nat) : Bool := malloc.all fun a => (st.panel.entries a).isNone

/-- One thing that happens, if it can. The owner passes entries that it has and that are not freed, and
    closes the panel from outside of it. -/
def step : PanelOp → Option PanelState
  | .getUser uid auth malloc now =>
    if st.ownerRuns ∧ st.canReturn malloc then
      some { st with panel := (st.panel.getUser hash uid auth malloc now).1 }
    else none
  | .getBypassUser uid malloc =>
    if st.ownerRuns ∧ st.canReturn malloc then
      some { st with panel := (st.panel.getBypassUser hash uid malloc).1 }
    else none
  | .terminate a =>
    if st.ownerRuns ∧ (st.panel.entries a).isSome then some (st.terminate a) else none
  | .notifySessionClosed uid count =>
    if st.ownerRuns then some (st.notifySessionClosed hash uid count) else none
  | .uploadNow => if st.ownerRuns then some st.uploadNow else none
  | .traffic a call =>
    if st.ownerRuns ∧ (st.panel.entries a).isSome then
      some { st with panel := st.panel.modify a fun u => { u with valve := u.valve.step call } }
    else none
  | .close => if st.ownerRuns ∧ st.stack = [] then some { st with panel := st.panel.close } else none
  | .resume world => st.resume hash world

/-- A run. -/
def run (st : PanelState) (ops : List PanelOp) : Option PanelState := ops.foldlM (step hash) st

end PanelState

end Cloak
