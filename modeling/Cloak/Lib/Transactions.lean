import Mathlib.Tactic.Common

set_option autoImplicit false

/-! # A connection to a transactional table

A table of rows under keys, reached through a connection whose every statement may fail. The connection
itself is a parameter: `TxConn` names its statements and what can be observed of it, `TxConn.Atomic` what
is documented of them. A transaction works on a copy of the committed rows (`InTx`) that a `COMMIT` which
succeeds puts in their place as a whole; nothing else touches the committed rows. `Scripted` is a
connection held in memory that fails where its script says so. -/

namespace Cloak.Lib

variable {D K V : Type}

/-- Rows under keys. -/
abbrev Table (K V : Type) := K → Option V

/-- `UPDATE … WHERE key = k`: the row at `k` is changed if there is one, none is inserted. -/
def Table.amend [DecidableEq K] (t : Table K V) (k : K) (f : V → V) : Table K V :=
  fun k' => if k' = k then (t k').map f else t k'

@[simp] theorem Table.amend_self [DecidableEq K] (t : Table K V) (k : K) (f : V → V) :
    t.amend k f k = (t k).map f := if_pos rfl

theorem Table.amend_ne [DecidableEq K] (t : Table K V) {k k' : K} (f : V → V) (h : k' ≠ k) :
    t.amend k f k' = t k' := if_neg h

/-- What a `SELECT … WHERE key = k` ends with. -/
inductive Found (V : Type) where
  | row (v : V)
  | absent
  | failed

/-- The statements of a connection. Each gives the connection it leaves behind; those that return no row
also tell whether they ran. -/
structure TxConn (D K V : Type) where
  /-- The rows as they were last committed. -/
  committed : D → Table K V
  /-- The rows as the statements of this connection find them. -/
  current : D → Table K V
  /-- No transaction is open. -/
  autocommit : D → Bool
  beginTx : D → Bool × D
  lookup : D → K → Found V × D
  update : D → K → (V → V) → Bool × D
  commit : D → Bool × D
  rollback : D → Bool × D

/-- Inside a transaction over the committed rows `base`, with `t` as its working copy. -/
structure TxConn.InTx (E : TxConn D K V) (base t : Table K V) (d : D) : Prop where
  opened : E.autocommit d = false
  committed : E.committed d = base
  current : E.current d = t

/-- Outside any transaction, over the committed rows `base`. -/
structure TxConn.Idle (E : TxConn D K V) (base : Table K V) (d : D) : Prop where
  closed : E.autocommit d = true
  committed : E.committed d = base

/-- Transactions are atomic. A statement that fails may abandon the transaction or leave it open with
whatever working copy, but it commits nothing. -/
structure TxConn.Atomic [DecidableEq K] (E : TxConn D K V) : Prop where
  /-- Outside a transaction the committed rows are what is read. -/
  current_idle {base d} : E.Idle base d → E.current d = base
  begin_done {base d d'} : E.Idle base d → E.beginTx d = (true, d') → E.InTx base base d'
  begin_failed {base d d'} : E.Idle base d → E.beginTx d = (false, d') → E.Idle base d'
  lookup_row {d k v d'} : E.lookup d k = (.row v, d') → E.current d k = some v
  lookup_absent {d k d'} : E.lookup d k = (.absent, d') → E.current d k = none
  /-- A `SELECT` that does not fail changes nothing. -/
  lookup_in_tx {base t d k r d'} : E.InTx base t d → E.lookup d k = (r, d') → r ≠ .failed →
    E.InTx base t d'
  lookup_failed {d k d'} : E.lookup d k = (.failed, d') → E.committed d' = E.committed d
  update_done {base t d k f d'} : E.InTx base t d → E.update d k f = (true, d') →
    E.InTx base (t.amend k f) d'
  update_failed {base t d k f d'} : E.InTx base t d → E.update d k f = (false, d') →
    E.committed d' = base
  commit_done {base t d d'} : E.InTx base t d → E.commit d = (true, d') → E.Idle t d'
  commit_failed {base t d d'} : E.InTx base t d → E.commit d = (false, d') → E.committed d' = base
  /-- Whether or not a `ROLLBACK` succeeds, nothing is committed by it. -/
  rollback {d} : E.committed (E.rollback d).2 = E.committed d

/-! ## A connection in memory -/

/-- How the next statement goes: it runs, it fails, or it fails and the transaction is abandoned. -/
inductive Fault where
  | fine
  | fails
  | aborts
deriving DecidableEq, Repr

/-- Rows in memory, the working copy of the open transaction, and how the next statements go. Past the
end of the script they run. -/
structure Scripted (K V : Type) where
  saved : Table K V
  working : Option (Table K V)
  script : List Fault

namespace Scripted

def current (d : Scripted K V) : Table K V := d.working.getD d.saved

/-- The fate of the next statement, taken off the script. -/
def next (d : Scripted K V) : Fault × Scripted K V :=
  (d.script.headD .fine, { d with script := d.script.tail })

/-- A statement that has failed. -/
def failed (d : Scripted K V) : Fault → Scripted K V
  | .aborts => { d with working := none }
  | _ => d

/-- Runs a statement unless the script or the statement's own precondition lets it fail. -/
def perform (d : Scripted K V) (run : Scripted K V → Option (Scripted K V)) :
    Bool × Scripted K V :=
  match d.next with
  | (.fine, d) =>
    match run d with
    | some d' => (true, d')
    | none => (false, d)
  | (f, d) => (false, d.failed f)

theorem perform_done {d d' : Scripted K V} {run : Scripted K V → Option (Scripted K V)}
    (h : d.perform run = (true, d')) : run d.next.2 = some d' := by
  rw [perform] at h
  split at h
  next d₀ hnext =>
    rw [hnext]
    split at h
    next hrun => simpa [hrun] using h
    next => simp at h
  next => simp at h

theorem perform_failed {d d' : Scripted K V} {run : Scripted K V → Option (Scripted K V)}
    (h : d.perform run = (false, d')) : d'.saved = d.saved ∧ (d.working = none → d'.working = none) := by
  rw [perform] at h
  have hsaved : d.next.2.saved = d.saved := rfl
  have hworking : d.next.2.working = d.working := rfl
  split at h
  next d₀ hnext =>
    rw [hnext] at hsaved hworking
    split at h
    next => simp at h
    next =>
      obtain rfl : d₀ = d' := by simpa using h
      exact ⟨hsaved, fun hd => hworking.trans hd⟩
  next f d₀ _ hnext =>
    rw [hnext] at hsaved hworking
    obtain rfl : d₀.failed f = d' := by simpa using h
    cases f
    case aborts => exact ⟨hsaved, fun _ => rfl⟩
    all_goals exact ⟨hsaved, fun hd => hworking.trans hd⟩

variable [DecidableEq K]

/-- The statements of a scripted connection. -/
def conn : TxConn (Scripted K V) K V where
  committed d := d.saved
  current d := d.current
  autocommit d := d.working.isNone
  beginTx d := d.perform fun d =>
    if d.working.isNone then some { d with working := some d.saved } else none
  lookup d k :=
    match d.next with
    | (.fine, d) =>
      match d.current k with
      | some v => (.row v, d)
      | none => (.absent, d)
    | (f, d) => (.failed, d.failed f)
  update d k f := d.perform fun d =>
    match d.working with
    | some t => some { d with working := some (t.amend k f) }
    | none => some { d with saved := d.saved.amend k f }
  commit d := d.perform fun d =>
    d.working.map fun t => { d with saved := t, working := none }
  rollback d := d.perform fun d =>
    d.working.map fun _ => { d with working := none }

/-- What a `SELECT` found, and that it left the rows alone. -/
theorem lookup_spec {d d' : Scripted K V} {k : K} {r : Found V} (h : conn.lookup d k = (r, d')) :
    d'.saved = d.saved ∧
      match r with
      | .row v => d.current k = some v ∧ d'.working = d.working
      | .absent => d.current k = none ∧ d'.working = d.working
      | .failed => True := by
  have hcur : d.next.2.current = d.current := rfl
  have hsaved : d.next.2.saved = d.saved := rfl
  have hworking : d.next.2.working = d.working := rfl
  simp only [conn] at h
  split at h
  next d₀ hnext =>
    rw [hnext] at hcur hsaved hworking
    split at h
    next v hrow =>
      obtain ⟨rfl, rfl⟩ := Prod.mk.inj h
      exact ⟨hsaved, hcur ▸ hrow, hworking⟩
    next hrow =>
      obtain ⟨rfl, rfl⟩ := Prod.mk.inj h
      exact ⟨hsaved, hcur ▸ hrow, hworking⟩
  next f d₀ _ hnext =>
    rw [hnext] at hsaved
    obtain ⟨rfl, rfl⟩ := Prod.mk.inj h
    cases f <;> exact ⟨hsaved, trivial⟩

theorem inTx_iff {base t : Table K V} {d : Scripted K V} :
    conn.InTx base t d ↔ d.saved = base ∧ d.working = some t := by
  constructor
  · rintro ⟨hopen, hbase, hcur⟩
    refine ⟨hbase, ?_⟩
    cases hw : d.working with
    | none => simp [conn, hw] at hopen
    | some t' => simpa [conn, current, hw] using hcur
  · rintro ⟨hbase, hw⟩
    exact ⟨by simp [conn, hw], hbase, by simp [conn, current, hw]⟩

theorem idle_iff {base : Table K V} {d : Scripted K V} :
    conn.Idle base d ↔ d.saved = base ∧ d.working = none := by
  constructor
  · rintro ⟨hclosed, hbase⟩
    exact ⟨hbase, by simpa [conn] using hclosed⟩
  · rintro ⟨hbase, hw⟩
    exact ⟨by simp [conn, hw], hbase⟩

theorem conn_atomic : (conn : TxConn (Scripted K V) K V).Atomic where
  current_idle h := by
    obtain ⟨hbase, hw⟩ := idle_iff.mp h
    simp [conn, current, hw, hbase]
  begin_done h hd := by
    obtain ⟨hbase, hw⟩ := idle_iff.mp h
    have hrun := perform_done hd
    simp only [next, hw, Option.isNone_none, if_true, Option.some.injEq] at hrun
    subst hrun
    exact inTx_iff.mpr ⟨hbase, by simp [hbase]⟩
  begin_failed h hd := by
    obtain ⟨hbase, hw⟩ := idle_iff.mp h
    obtain ⟨hsaved, hworking⟩ := perform_failed hd
    exact idle_iff.mpr ⟨hsaved.trans hbase, hworking hw⟩
  lookup_row h := (lookup_spec h).2.1
  lookup_absent h := (lookup_spec h).2.1
  lookup_in_tx {_ _ _ _ r _} h hd hr := by
    obtain ⟨hbase, hw⟩ := inTx_iff.mp h
    obtain ⟨hsaved, hrest⟩ := lookup_spec hd
    cases r with
    | row v => exact inTx_iff.mpr ⟨hsaved.trans hbase, hrest.2.trans hw⟩
    | absent => exact inTx_iff.mpr ⟨hsaved.trans hbase, hrest.2.trans hw⟩
    | failed => exact absurd rfl hr
  lookup_failed h := (lookup_spec h).1
  update_done h hd := by
    obtain ⟨hbase, hw⟩ := inTx_iff.mp h
    have hrun := perform_done hd
    simp only [next, hw, Option.some.injEq] at hrun
    subst hrun
    exact inTx_iff.mpr ⟨hbase, rfl⟩
  update_failed h hd := (perform_failed hd).1.trans (inTx_iff.mp h).1
  commit_done h hd := by
    obtain ⟨hbase, hw⟩ := inTx_iff.mp h
    have hrun := perform_done hd
    simp only [next, hw, Option.map_some, Option.some.injEq] at hrun
    subst hrun
    exact idle_iff.mpr ⟨rfl, rfl⟩
  commit_failed h hd := (perform_failed hd).1.trans (inTx_iff.mp h).1
  rollback {d} := by
    cases hd : (conn.rollback d) with
    | mk done d' =>
      cases done with
      | false => exact (perform_failed hd).1
      | true =>
        have hrun := perform_done hd
        obtain ⟨t, -, rfl⟩ := Option.map_eq_some_iff.mp hrun
        rfl

end Scripted

end Cloak.Lib
