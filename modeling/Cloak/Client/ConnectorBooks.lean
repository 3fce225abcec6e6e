import Cloak.Client.ClientConnector

set_option autoImplicit false

/-! # What a client connector holds

While a connector is pending, each of its connections waits for exactly one thing, or is through
(`Active`). What a step does to connection `i` leaves the others alone, so `Live` is kept one
connection at a time (`Live.move`). A connector that is no longer pending holds nothing (`Over`). -/

namespace Cloak

open Lib

/-! ## The record -/

namespace ConnectorIo

/-- The socket an entry closes. -/
def closed? : ConnectorIo → Option Nat
  | closed s => some s
  | _ => none

/-- The socket an entry hands to the session. -/
def added? : ConnectorIo → Option Nat
  | sessionAdd s => some s
  | _ => none

/-- The connection an entry starts an attempt of. -/
def attempted? : ConnectorIo → Option Nat
  | attempt i => some i
  | _ => none

/-- The key an entry says connection `i` got. -/
def keyed? (i : Nat) : ConnectorIo → Option SessionKey
  | keyed j key => if j = i then some key else none
  | _ => none

/-- The socket an entry says connection `i` got. -/
def dialed? (i : Nat) : ConnectorIo → Option Nat
  | dialed j s => if j = i then some s else none
  | _ => none

/-- The configuration of the session an entry sets up. -/
def inited? : ConnectorIo → Option SessionConfig
  | sessionInit config => some config
  | _ => none

/-- What an entry reports. -/
def reported? : ConnectorIo → Option ConnectorStatus
  | report status => some status
  | _ => none

end ConnectorIo

namespace ClientConnector

/-- The sockets the connector has closed and those it has handed to the session, the keys and the
    sockets connection `i` got, the sessions set up, and the calls of `on_done`. -/
def closed (io : List ConnectorIo) : List Nat := io.filterMap ConnectorIo.closed?
def added (io : List ConnectorIo) : List Nat := io.filterMap ConnectorIo.added?
def keysOf (i : Nat) (io : List ConnectorIo) : List SessionKey := io.filterMap (ConnectorIo.keyed? i)
def dialsOf (i : Nat) (io : List ConnectorIo) : List Nat := io.filterMap (ConnectorIo.dialed? i)
def inits (io : List ConnectorIo) : List SessionConfig := io.filterMap ConnectorIo.inited?
def reports (io : List ConnectorIo) : List ConnectorStatus := io.filterMap ConnectorIo.reported?

/-- How many attempts connection `i` has made. -/
def attemptsOf (i : Nat) (io : List ConnectorIo) : Nat :=
  (io.filterMap ConnectorIo.attempted?).count i

/-- The sockets the connections hold. -/
def held (conns : List ConnectorConn) : List Nat := conns.filterMap ConnectorConn.fd

section Record

variable (io io' : List ConnectorIo)

@[simp] theorem closed_append : closed (io ++ io') = closed io ++ closed io' := List.filterMap_append
@[simp] theorem added_append : added (io ++ io') = added io ++ added io' := List.filterMap_append
@[simp] theorem keysOf_append (i : Nat) : keysOf i (io ++ io') = keysOf i io ++ keysOf i io' :=
  List.filterMap_append
@[simp] theorem dialsOf_append (i : Nat) : dialsOf i (io ++ io') = dialsOf i io ++ dialsOf i io' :=
  List.filterMap_append
@[simp] theorem inits_append : inits (io ++ io') = inits io ++ inits io' := List.filterMap_append
@[simp] theorem reports_append : reports (io ++ io') = reports io ++ reports io' :=
  List.filterMap_append
@[simp] theorem attemptsOf_append (i : Nat) :
    attemptsOf i (io ++ io') = attemptsOf i io + attemptsOf i io' := by
  rw [attemptsOf, List.filterMap_append, List.count_append]
  rfl

end Record

/-- A record of closed sockets and reports alone. -/
structure Quiet (l : List ConnectorIo) : Prop where
  added : added l = []
  keys : ∀ i, keysOf i l = []
  dials : ∀ i, dialsOf i l = []
  inits : inits l = []
  attempts : ∀ i, attemptsOf i l = 0

theorem Quiet.nil : Quiet [] := ⟨rfl, fun _ => rfl, fun _ => rfl, rfl, fun _ => rfl⟩

theorem Quiet.append {l l' : List ConnectorIo} (h : Quiet l) (h' : Quiet l') : Quiet (l ++ l') := by
  refine ⟨?_, fun i => ?_, fun i => ?_, ?_, fun i => ?_⟩
  · rw [added_append, h.added, h'.added, List.append_nil]
  · rw [keysOf_append, h.keys, h'.keys, List.append_nil]
  · rw [dialsOf_append, h.dials, h'.dials, List.append_nil]
  · rw [inits_append, h.inits, h'.inits, List.append_nil]
  · rw [attemptsOf_append, h.attempts, h'.attempts]

theorem quiet_closed (s : Nat) : Quiet [.closed s] :=
  ⟨rfl, fun _ => rfl, fun _ => rfl, rfl, fun _ => rfl⟩

theorem quiet_report (status : ConnectorStatus) : Quiet [.report status] :=
  ⟨rfl, fun _ => rfl, fun _ => rfl, rfl, fun _ => rfl⟩

theorem quiet_sessionDestroy : Quiet [.sessionDestroy] :=
  ⟨rfl, fun _ => rfl, fun _ => rfl, rfl, fun _ => rfl⟩

/-- What `connector_release` records: it closes what the connections hold. -/
theorem closes_flatMap (conns : List ConnectorConn) :
    Quiet (conns.flatMap closes) ∧ closed (conns.flatMap closes) = held conns
      ∧ reports (conns.flatMap closes) = [] := by
  induction conns with
  | nil => exact ⟨.nil, rfl, rfl⟩
  | cons conn conns ih =>
    obtain ⟨hquiet, hclosed, hreports⟩ := ih
    rw [List.flatMap_cons]
    cases hfd : conn.fd with
    | none =>
      have hnone : closes conn = [] := by
        rw [closes, hfd]
        rfl
      have hheld : held (conn :: conns) = held conns := List.filterMap_cons_none hfd
      rw [hnone, hheld]
      exact ⟨hquiet, hclosed, hreports⟩
    | some s =>
      have hone : closes conn = [.closed s] := by
        rw [closes, hfd]
        rfl
      have hheld : held (conn :: conns) = s :: held conns := List.filterMap_cons_some hfd
      rw [hone, hheld]
      refine ⟨(quiet_closed s).append hquiet, ?_, ?_⟩
      · rw [closed_append, hclosed]
        rfl
      · rw [reports_append, hreports]
        rfl

/-! ## One connection among the others -/

/-- Where a connection stands in its list, and what replacing it does. -/
theorem split_at {α : Type} {l : List α} {i : Nat} {a : α} (h : l[i]? = some a) :
    ∃ pre post, l = pre ++ a :: post ∧ ∀ b, l.set i b = pre ++ b :: post := by
  induction l generalizing i with
  | nil => cases h
  | cons x l ih =>
    cases i with
    | zero =>
      obtain rfl := Option.some.inj h
      exact ⟨[], l, rfl, fun _ => rfl⟩
    | succ i =>
      obtain ⟨pre, post, heq, hset⟩ := ih h
      exact ⟨x :: pre, post, congrArg (x :: ·) heq, fun b => congrArg (x :: ·) (hset b)⟩

theorem modify_eq_set_of {α : Type} {l : List α} {i : Nat} {a : α} (h : l[i]? = some a) (f : α → α) :
    l.modify i f = l.set i (f a) := by
  obtain ⟨hlt, rfl⟩ := List.getElem?_eq_some_iff.mp h
  rw [List.modify_eq_take_cons_drop hlt, List.set_eq_take_append_cons_drop, if_pos hlt]

section Replace

variable {conns : List ConnectorConn} {i : Nat} {conn conn' : ConnectorConn}

theorem held_set_same (h : conns[i]? = some conn) (hfd : conn'.fd = conn.fd) :
    held (conns.set i conn') = held conns := by
  obtain ⟨pre, post, rfl, hset⟩ := split_at h
  rw [hset]
  simp only [held, List.filterMap_append, List.filterMap_cons, hfd]

theorem held_set_none (h : conns[i]? = some conn) {s : Nat} (hfd : conn.fd = some s)
    (hfd' : conn'.fd = none) : (held conns).Perm (s :: held (conns.set i conn')) := by
  obtain ⟨pre, post, rfl, hset⟩ := split_at h
  rw [hset]
  simp only [held, List.filterMap_append, List.filterMap_cons, hfd, hfd']
  exact List.perm_middle

theorem held_set_some (h : conns[i]? = some conn) {s : Nat} (hfd : conn.fd = none)
    (hfd' : conn'.fd = some s) : (held (conns.set i conn')).Perm (s :: held conns) := by
  obtain ⟨pre, post, rfl, hset⟩ := split_at h
  rw [hset]
  simp only [held, List.filterMap_append, List.filterMap_cons, hfd, hfd']
  exact List.perm_middle

theorem countP_set_same (h : conns[i]? = some conn) (hdone : conn'.done = conn.done) :
    (conns.set i conn').countP ConnectorConn.done = conns.countP ConnectorConn.done := by
  obtain ⟨pre, post, rfl, hset⟩ := split_at h
  rw [hset, List.countP_append, List.countP_append, List.countP_cons, List.countP_cons, hdone]

theorem countP_set_done (h : conns[i]? = some conn) (hdone : conn.done = false)
    (hdone' : conn'.done = true) :
    (conns.set i conn').countP ConnectorConn.done = conns.countP ConnectorConn.done + 1 := by
  obtain ⟨pre, post, rfl, hset⟩ := split_at h
  rw [hset, List.countP_append, List.countP_append, List.countP_cons, List.countP_cons, hdone, hdone']
  simp
  omega

theorem sum_set (h : conns[i]? = some conn) (f : ConnectorConn → Nat) :
    ((conns.set i conn').map f).sum + f conn = (conns.map f).sum + f conn' := by
  obtain ⟨pre, post, rfl, hset⟩ := split_at h
  rw [hset]
  simp only [List.map_append, List.map_cons, List.sum_append, List.sum_cons]
  omega

end Replace

/-! ## Pending connectors -/

/-- A connection that waits for nothing. -/
structure Idle (conn : ConnectorConn) : Prop where
  retryTimer : conn.retryTimer = none
  dialActive : conn.dialActive = false
  hsActive : conn.hsActive = false
  fd : conn.fd = none
  done : conn.done = false

/-- A connection that waits for one thing, or is through. -/
inductive Active (maxAttempts : Nat) (conn : ConnectorConn) : Prop
  | retrying (hretry : conn.retryTimer.isSome = true) (hdial : conn.dialActive = false)
      (hhs : conn.hsActive = false) (hfd : conn.fd = none) (hdone : conn.done = false)
      (hroom : conn.attempts < maxAttempts)
  | dialing (hretry : conn.retryTimer = none) (hdial : conn.dialActive = true)
      (hhs : conn.hsActive = false) (hfd : conn.fd = none) (hdone : conn.done = false)
  | handshaking (hretry : conn.retryTimer = none) (hdial : conn.dialActive = false)
      (hhs : conn.hsActive = true) (hfd : conn.fd.isSome = true) (hdone : conn.done = false)
  | complete (hretry : conn.retryTimer = none) (hdial : conn.dialActive = false)
      (hhs : conn.hsActive = false) (hfd : conn.fd.isSome = true) (hdone : conn.done = true)

/-- What holds of a pending connector inside an entry point too: nothing is reported, and every socket
    there ever was is closed, with the session, or with one connection. -/
structure Mid (n : Nat) (c : ClientConnector) : Prop where
  status : c.status = .pending
  notified : c.notified = false
  destroyed : c.destroyed = false
  sockets : (closed c.io ++ (added c.io ++ held c.conns)).Perm (List.range c.sockets)
  attempts : ∀ i, attemptsOf i c.io ≤ c.maxAttempts
  unreported : reports c.io = []
  fewer : (added c.io).length < n

/-- One connection of a pending connector. `gap` is `none` unless the connection is idle, and then a
    bound for its attempts. -/
structure ConnOk (maxAttempts : Nat) (gap : Option Nat) (io : List ConnectorIo) (i : Nat)
    (conn : ConnectorConn) : Prop where
  phase : match gap with
    | none => Active maxAttempts conn
    | some lim => Idle conn ∧ conn.attempts < lim
  attempts : attemptsOf i io = conn.attempts
  keyed : keysOf i io = if conn.done then [conn.key] else []
  own : ∀ s, conn.fd = some s → s ∈ dialsOf i io

/-- A pending connector, of whose `n` connections `gap` names the idle ones. -/
structure Live (n : Nat) (gap : Nat → Option Nat) (c : ClientConnector) : Prop extends Mid n c where
  length : c.conns.length = n
  kickoffTimer : c.kickoffTimer = false
  sessionOwned : c.sessionOwned = false
  unassembled : inits c.io = [] ∧ added c.io = []
  completed : c.completed = c.conns.countP ConnectorConn.done
  conn : ∀ i conn, c.conns[i]? = some conn → ConnOk c.maxAttempts (gap i) c.io i conn

/-- A record that is about connection `i` alone. -/
structure Concerns (i : Nat) (l : List ConnectorIo) : Prop where
  attempts : ∀ j, j ≠ i → attemptsOf j l = 0
  keys : ∀ j, j ≠ i → keysOf j l = []
  inits : inits l = []
  added : added l = []
  reports : reports l = []

/-- What changes connection `i` alone: the connector keeps the rest. -/
structure Moves (i : Nat) (conn' : ConnectorConn) (l : List ConnectorIo) (c c' : ClientConnector) :
    Prop where
  conns : c'.conns = c.conns.set i conn'
  io : c'.io = c.io ++ l
  concerns : Concerns i l
  status : c'.status = c.status
  notified : c'.notified = c.notified
  destroyed : c'.destroyed = c.destroyed
  sessionOwned : c'.sessionOwned = c.sessionOwned
  kickoffTimer : c'.kickoffTimer = c.kickoffTimer
  maxAttempts : c'.maxAttempts = c.maxAttempts
  config : c'.config = c.config

theorem Mid.move {n i : Nat} {conn' : ConnectorConn} {l : List ConnectorIo} {c c' : ClientConnector}
    (h : Mid n c) (hm : Moves i conn' l c c')
    (hsockets : (closed c'.io ++ (added c'.io ++ held c'.conns)).Perm (List.range c'.sockets))
    (hattempts : attemptsOf i c'.io ≤ c.maxAttempts) : Mid n c' := by
  have hadded : added c'.io = added c.io := by rw [hm.io, added_append, hm.concerns.added,
    List.append_nil]
  refine ⟨hm.status.trans h.status, hm.notified.trans h.notified, hm.destroyed.trans h.destroyed,
    hsockets, fun j => ?_, ?_, by rw [hadded]; exact h.fewer⟩
  · rw [hm.maxAttempts]
    by_cases hj : j = i
    · exact hj ▸ hattempts
    · rw [hm.io, attemptsOf_append, hm.concerns.attempts j hj]
      exact h.attempts j
  · rw [hm.io, reports_append, h.unreported, hm.concerns.reports]
    rfl

/-- One connection moves on. -/
theorem Live.move {n i : Nat} {gap gap' : Nat → Option Nat} {conn' : ConnectorConn}
    {l : List ConnectorIo} {c c' : ClientConnector} (h : Live n gap c) (hm : Moves i conn' l c c')
    (hgap : ∀ j, j ≠ i → gap' j = gap j)
    (hsockets : (closed c'.io ++ (added c'.io ++ held c'.conns)).Perm (List.range c'.sockets))
    (hattempts : conn'.attempts ≤ c.maxAttempts)
    (hok : ConnOk c.maxAttempts (gap' i) c'.io i conn')
    (hcompleted : c'.completed = c'.conns.countP ConnectorConn.done) : Live n gap' c' := by
  refine ⟨h.toMid.move hm hsockets (hok.attempts ▸ hattempts), ?_, hm.kickoffTimer.trans h.kickoffTimer,
    hm.sessionOwned.trans h.sessionOwned, ?_, hcompleted, fun j conn hj => ?_⟩
  · rw [hm.conns, List.length_set, h.length]
  · rw [hm.io, inits_append, added_append, hm.concerns.inits, hm.concerns.added, List.append_nil,
      List.append_nil]
    exact h.unassembled
  · rw [hm.conns] at hj
    rw [hm.maxAttempts]
    by_cases hne : j = i
    · subst hne
      obtain ⟨hlt, hconn⟩ := List.getElem?_eq_some_iff.mp hj
      rw [List.getElem_set_self] at hconn
      rw [← hconn]
      exact hok
    · rw [List.getElem?_set_ne (Ne.symm hne)] at hj
      have hold := h.conn j conn hj
      rw [hgap j hne, hm.io]
      refine ⟨hold.phase, ?_, ?_, fun s hs => ?_⟩
      · rw [attemptsOf_append, hm.concerns.attempts j hne]
        exact hold.attempts
      · rw [keysOf_append, hm.concerns.keys j hne, List.append_nil]
        exact hold.keyed
      · rw [dialsOf_append]
        exact List.mem_append_left _ (hold.own s hs)

/-! ## Connectors that are over -/

/-- Every handshake completed, all with one key, and the session was set up with that key and given
    the sockets of all the connections. -/
def SessionBuilt (n : Nat) (config : ConnectorConfig) (io : List ConnectorIo) : Prop :=
  ∃ key, (∀ i < n, keysOf i io = [key]) ∧ inits io = [sessionConfig config key]
    ∧ (added io).length = n ∧ ∀ i < n, ∃ s ∈ added io, s ∈ dialsOf i io

theorem sessionBuilt_append {n : Nat} {config : ConnectorConfig} {io l : List ConnectorIo}
    (h : Quiet l) : SessionBuilt n config (io ++ l) ↔ SessionBuilt n config io := by
  simp only [SessionBuilt, keysOf_append, inits_append, added_append, dialsOf_append, h.keys, h.inits,
    h.added, h.dials, List.append_nil]

/-- A connector that is no longer pending: it holds nothing, and it is done if and only if it has built
    its session. -/
structure Over (n : Nat) (c : ClientConnector) : Prop where
  status : c.status ≠ .pending
  kickoffTimer : c.kickoffTimer = false
  released : ∀ conn ∈ c.conns, released conn = conn
  sessionOwned : c.sessionOwned = false
  sockets : (closed c.io ++ added c.io).Perm (List.range c.sockets)
  attempts : ∀ i, attemptsOf i c.io ≤ c.maxAttempts
  outcome : c.status = .done ↔ SessionBuilt n c.config c.io

/-- It has not called `on_done` yet. -/
structure Unreported (n : Nat) (c : ClientConnector) : Prop extends Over n c where
  notified : c.notified = false
  destroyed : c.destroyed = false
  unreported : reports c.io = []

/-- It has called `on_done` once, or was destroyed before. -/
structure Ended (n : Nat) (c : ClientConnector) : Prop extends Over n c where
  notified : c.notified = true
  reported : reports c.io = [c.status] ∨ c.destroyed = true ∧ c.status = .failed ∧ reports c.io = []

theorem held_released {conns : List ConnectorConn} (h : ∀ conn ∈ conns, released conn = conn) :
    held conns = [] := by
  refine List.filterMap_eq_nil_iff.mpr fun conn hconn => ?_
  rw [← h conn hconn]
  rfl

theorem released_map (conns : List ConnectorConn) :
    ∀ conn ∈ conns.map released, released conn = conn := by
  rintro conn hconn
  obtain ⟨conn', _, rfl⟩ := List.mem_map.mp hconn
  rfl

/-- What `connector_release` and the destruction of the session record. -/
def dropped (c : ClientConnector) : List ConnectorIo :=
  c.conns.flatMap closes ++ if c.sessionOwned then [.sessionDestroy] else []

theorem release_dropSession (c : ClientConnector) :
    c.release.dropSession =
      { c with
        kickoffTimer := false
        conns := c.conns.map released
        sessionOwned := false
        io := c.io ++ dropped c } := by
  unfold dropSession
  split
  · next howned =>
    have howned' : c.sessionOwned = true := howned
    simp only [release, dropped, howned', if_true, List.append_assoc]
  · next howned =>
    have howned' : c.sessionOwned = false := Bool.eq_false_iff.mpr howned
    simp [release, dropped, howned']

theorem dropped_spec (c : ClientConnector) :
    Quiet (dropped c) ∧ closed (dropped c) = held c.conns ∧ reports (dropped c) = [] := by
  obtain ⟨hquiet, hclosed, hreports⟩ := closes_flatMap c.conns
  unfold dropped
  split
  · refine ⟨hquiet.append quiet_sessionDestroy, ?_, ?_⟩
    · rw [closed_append, hclosed]
      exact List.append_nil _
    · rw [reports_append, hreports]
      rfl
  · rw [List.append_nil]
    exact ⟨hquiet, hclosed, hreports⟩

/-- The sockets of a pending connector after it has let go of them. -/
theorem Mid.sockets_dropped {n : Nat} {c : ClientConnector} (h : Mid n c) :
    (closed (c.io ++ dropped c) ++ added (c.io ++ dropped c)).Perm (List.range c.sockets) := by
  obtain ⟨hquiet, hclosed, _⟩ := dropped_spec c
  rw [closed_append, added_append, hclosed, hquiet.added, List.append_nil, List.append_assoc]
  exact (List.perm_append_comm.append_left _).trans h.sockets

theorem Mid.not_built {n : Nat} {c : ClientConnector} (h : Mid n c) :
    ¬SessionBuilt n c.config (c.io ++ dropped c) := by
  rw [sessionBuilt_append (dropped_spec c).1]
  rintro ⟨_, _, _, hlen, _⟩
  exact absurd h.fewer (by omega)

theorem Mid.attempts_dropped {n : Nat} {c : ClientConnector} (h : Mid n c) (i : Nat) :
    attemptsOf i (c.io ++ dropped c) ≤ c.maxAttempts := by
  rw [attemptsOf_append, (dropped_spec c).1.attempts]
  exact h.attempts i

theorem Mid.fail {n : Nat} {c : ClientConnector} (h : Mid n c) (err : ConnectorError) :
    Unreported n (c.fail err) := by
  obtain ⟨hquiet, hclosed, hreports⟩ := dropped_spec c
  have heq : c.fail err = { c with status := .failed, error := err }.release.dropSession :=
    if_neg (not_not.mpr h.status)
  rw [heq, release_dropSession]
  refine ⟨⟨nofun, rfl, released_map c.conns, rfl, h.sockets_dropped, h.attempts_dropped, ?_⟩,
    h.notified, h.destroyed, ?_⟩
  · exact ⟨nofun, fun hbuilt => absurd hbuilt h.not_built⟩
  · change reports (c.io ++ dropped c) = []
    rw [reports_append, h.unreported, hreports]
    rfl

/-- `cloak_client_connector_destroy` before anything was reported. -/
theorem Mid.destroy {n : Nat} {c : ClientConnector} (h : Mid n c) : Ended n c.destroy := by
  obtain ⟨hquiet, hclosed, hreports⟩ := dropped_spec c
  unfold ClientConnector.destroy
  rw [release_dropSession, if_pos h.status]
  refine ⟨⟨nofun, rfl, fun _ hc => absurd hc List.not_mem_nil, rfl, h.sockets_dropped,
    h.attempts_dropped, ?_⟩, rfl, .inr ⟨rfl, rfl, ?_⟩⟩
  · exact ⟨nofun, fun hbuilt => absurd hbuilt h.not_built⟩
  · change reports (c.io ++ dropped c) = []
    rw [reports_append, h.unreported, hreports]
    rfl

/-- A connector that is over lets go of nothing more. -/
theorem Over.dropped_eq {n : Nat} {c : ClientConnector} (h : Over n c) : dropped c = [] := by
  have hnil : c.conns.flatMap closes = [] := by
    refine List.flatMap_eq_nil_iff.mpr fun conn hconn => ?_
    rw [← h.released conn hconn]
    rfl
  simp [dropped, hnil, h.sessionOwned]

theorem Over.destroy_io {n : Nat} {c : ClientConnector} (h : Over n c) : c.destroy.io = c.io := by
  unfold ClientConnector.destroy
  rw [release_dropSession, h.dropped_eq]
  exact List.append_nil _

theorem Over.destroy {n : Nat} {c : ClientConnector} (h : Over n c)
    (hreports : reports c.io = [c.status] ∨ c.destroyed = true ∧ c.status = .failed ∧ reports c.io = []) :
    Ended n c.destroy := by
  have hio := h.destroy_io
  have hstatus : c.destroy.status = c.status := if_neg h.status
  have hsockets : c.destroy.sockets = c.sockets := by
    unfold ClientConnector.destroy
    rw [release_dropSession]
  have hmax : c.destroy.maxAttempts = c.maxAttempts := by
    unfold ClientConnector.destroy
    rw [release_dropSession]
  have hconfig : c.destroy.config = c.config := by
    unfold ClientConnector.destroy
    rw [release_dropSession]
  refine ⟨⟨?_, ?_, fun _ hc => absurd hc List.not_mem_nil, ?_, ?_, fun i => ?_, ?_⟩, rfl, ?_⟩
  · rw [hstatus]
    exact h.status
  · unfold ClientConnector.destroy
    rw [release_dropSession]
  · unfold ClientConnector.destroy
    rw [release_dropSession]
  · rw [hio, hsockets]
    exact h.sockets
  · rw [hio, hmax]
    exact h.attempts i
  · rw [hstatus, hio, hconfig]
    exact h.outcome
  · rw [hio, hstatus]
    exact hreports.imp_right fun hc => ⟨rfl, hc.2⟩

/-- `finish` reports once. -/
theorem Unreported.finish {n : Nat} {c : ClientConnector} (h : Unreported n c) (ownerDestroys : Bool) :
    Ended n (c.finish ownerDestroys)
      ∧ reports (c.finish ownerDestroys).io = [(c.finish ownerDestroys).status] := by
  have hgo : ¬(c.status = .pending ∨ c.notified = true) := by
    rintro (hc | hc)
    · exact h.status hc
    · exact Bool.false_ne_true (h.notified.symm.trans hc)
  have hquiet := quiet_report c.status
  have hreported : Over n { c with notified := true, io := c.io ++ [.report c.status] } := by
    refine ⟨h.status, h.kickoffTimer, h.released, h.sessionOwned, ?_, fun i => ?_, ?_⟩
    · change (closed (c.io ++ [.report c.status]) ++ added (c.io ++ [.report c.status])).Perm _
      rw [closed_append, added_append, hquiet.added, List.append_nil]
      change (closed c.io ++ [] ++ added c.io).Perm _
      rw [List.append_nil]
      exact h.sockets
    · change attemptsOf i (c.io ++ [.report c.status]) ≤ c.maxAttempts
      rw [attemptsOf_append, hquiet.attempts]
      exact h.attempts i
    · change c.status = .done ↔ SessionBuilt n c.config (c.io ++ [.report c.status])
      rw [sessionBuilt_append hquiet]
      exact h.outcome
  have hone : reports (c.io ++ [.report c.status]) = [c.status] := by
    rw [reports_append, h.unreported]
    rfl
  unfold ClientConnector.finish
  rw [if_neg hgo]
  dsimp only
  split
  · refine ⟨hreported.destroy (.inl hone), ?_⟩
    rw [hreported.destroy_io, hone]
    exact congrArg (fun status => [status]) (if_neg h.status).symm
  · exact ⟨⟨hreported, rfl, .inl hone⟩, hone⟩

end ClientConnector

end Cloak
