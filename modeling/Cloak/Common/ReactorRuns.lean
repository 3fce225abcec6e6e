import Cloak.Lib.Run
import Cloak.Common.ReactorSlots

set_option autoImplicit false

/-! # Runs of the reactor's timers

A run is any sequence of the timer operations: adding, cancelling, stopping, and the passes of
`process_expired_timers`, of which every turn of the loop is a step of its own. What a callback does
therefore happens between two steps of the pass that called it. The clock is the monotonic one; it
advances between any two steps.

A timer is seen by its users as a handle with a deadline and a callback. The run keeps a log of the
timers that were added, cancelled and fired, which no operation reads. -/

namespace Cloak

universe u

open scoped List

variable {κ : Type u}

/-- A timer as its users know it. -/
structure Timer (κ : Type u) where
  id : Nat
  deadlineMs : Nat
  cb : κ
  deriving DecidableEq

def TimerEntry.timer (e : TimerEntry κ) : Timer κ := ⟨e.id, e.deadlineMs, e.cb⟩

/-- An entry of the log. `due` is when an added timer is to fire at the earliest, `clock` is when
    a timer fired, in the pass with that number. -/
inductive TimerNote (κ : Type u) where
  | added (t : Timer κ) (due : Nat)
  | cancelled (t : Timer κ)
  | fired (t : Timer κ) (pass clock : Nat)
  deriving DecidableEq

/-- The timer that a note says was added. -/
def TimerNote.issued : TimerNote κ → Option (Timer κ)
  | .added t _ => some t
  | _ => none

/-- The timer that a note says is over. -/
def TimerNote.ended : TimerNote κ → Option (Timer κ)
  | .added _ _ => none
  | .cancelled t => some t
  | .fired t _ _ => some t

/-- The reactor with its clock and the pass it is in, if any: `pass` is the reading of the clock
    that `process_expired_timers` began with. -/
structure TimerRun (κ : Type u) where
  reactor : Reactor κ
  clock : Nat
  pass : Option Nat
  passes : Nat
  log : List (TimerNote κ)

/-- What happens to the timers. -/
inductive TimerEvent (κ : Type u) where
  | tick (ms : Nat)
  | add (delayMs : Nat) (cb : Option κ) (heapMem slotMem : Bool)
  | cancel (id : Nat)
  | stop
  | start
  | beginPass
  | turn

namespace TimerRun

def create [Inhabited κ] : TimerRun κ := ⟨Reactor.create, 0, none, 0, []⟩

/-- `now_ms`. -/
def nowMs (w : TimerRun κ) : Nat := w.clock % 2 ^ 64

/-- The timers that have neither fired nor been cancelled. -/
def pending (r : Reactor κ) : List (Timer κ) :=
  (Lib.cellList r.timers r.timerCount).map TimerEntry.timer

def note (w : TimerRun κ) (n : TimerNote κ) : TimerRun κ := { w with log := w.log ++ [n] }

/-- `cloak_reactor_add_timer`, with a note of the timer it added. -/
def add (w : TimerRun κ) (delayMs : Nat) (cb : Option κ) (heapMem slotMem : Bool) : TimerRun κ :=
  let (reactor, id) := w.reactor.addTimer w.nowMs delayMs cb heapMem slotMem
  let w' := { w with reactor := reactor }
  match cb with
  | some f =>
    if id = CLOAK_TIMER_INVALID then w'
    else w'.note (.added ⟨id, (w.nowMs + delayMs) % 2 ^ 64, f⟩ (w.clock + delayMs))
  | none => w'

/-- `cloak_reactor_cancel_timer`, with a note of the timer it cancelled. -/
def cancel (w : TimerRun κ) (id : Nat) : TimerRun κ :=
  let w' := { w with reactor := w.reactor.cancelTimer id }
  match w.reactor.lookup id with
  | some slot => w'.note (.cancelled (w.reactor.timers (w.reactor.heapPos slot)).timer)
  | none => w'

/-- `process_expired_timers` is called. No callback runs the reactor, so its calls do not nest. -/
def beginPass (w : TimerRun κ) : TimerRun κ :=
  if w.pass = none ∧ w.reactor.stopped = false then
    { w with pass := some w.nowMs, passes := w.passes + 1 }
  else w

/-- A turn of the loop of `process_expired_timers`. What the callback does comes after it. -/
def turn (w : TimerRun κ) : TimerRun κ :=
  match w.pass with
  | none => w
  | some now =>
    match w.reactor.expired now with
    | none => { w with pass := none }
    | some top =>
      { w with reactor := w.reactor.fireTop }.note (.fired top.timer w.passes w.clock)

def step (w : TimerRun κ) : TimerEvent κ → TimerRun κ
  | .tick ms => { w with clock := w.clock + ms }
  | .add delayMs cb heapMem slotMem => w.add delayMs cb heapMem slotMem
  | .cancel id => w.cancel id
  | .stop => { w with reactor := { w.reactor with stopped := true } }
  | .start => { w with reactor := { w.reactor with stopped := false } }
  | .beginPass => w.beginPass
  | .turn => w.turn

/-- The timers issued so far, and those that are over. -/
def issued (w : TimerRun κ) : List (Timer κ) := w.log.filterMap TimerNote.issued

def ended (w : TimerRun κ) : List (Timer κ) := w.log.filterMap TimerNote.ended

/-! ## What every step keeps -/

/-- The reactor is sane, the handles issued are all different, and each timer issued is either
    pending or over, once. -/
structure Kept (w : TimerRun κ) (m : Nat → Option (TimerEntry κ)) (free : List Nat) : Prop where
  sane : w.reactor.Sane m free
  issued : ∀ t ∈ w.issued, w.reactor.Issued free t.id
  nodup : (w.issued.map Timer.id).Nodup
  once : (pending w.reactor ++ w.ended).Perm w.issued
  due : ∀ t pass clock, .fired t pass clock ∈ w.log → t.deadlineMs ≤ clock
  pass_le : ∀ now, w.pass = some now → now ≤ w.clock

theorem Kept.create [Inhabited κ] : (create : TimerRun κ).Kept (fun _ => none) [] where
  sane := .create
  issued := by simp [TimerRun.issued, TimerRun.create]
  nodup := by simp [TimerRun.issued, TimerRun.create]
  once := by
    simp [TimerRun.issued, TimerRun.ended, TimerRun.create, pending, Lib.cellList, Reactor.create]
  due := by simp [TimerRun.create]
  pass_le := by simp [TimerRun.create]

/-- What a step does to the pending timers, and the note it makes of it. -/
inductive Moved (w : TimerRun κ) (e : TimerEvent κ) (w' : TimerRun κ) : Prop where
  | same (log : w'.log = w.log) (pending : pending w'.reactor = pending w.reactor)
  | added (t : Timer κ) (delayMs : Nat) (cb : Option κ) (heapMem slotMem : Bool)
      (event : e = .add delayMs cb heapMem slotMem)
      (log : w'.log = w.log ++ [.added t (w.clock + delayMs)])
      (pending : pending w'.reactor ~ t :: pending w.reactor)
      (deadline : t.deadlineMs = (w.nowMs + delayMs) % 2 ^ 64)
  | cancelled (t : Timer κ) (log : w'.log = w.log ++ [.cancelled t])
      (pending : pending w.reactor ~ t :: pending w'.reactor)
  | fired (t : Timer κ) (now : Nat) (pass : w.pass = some now) (due : t.deadlineMs ≤ now)
      (least : ∀ t' ∈ TimerRun.pending w.reactor, t.deadlineMs ≤ t'.deadlineMs)
      (log : w'.log = w.log ++ [.fired t w.passes w.clock])
      (pending : pending w.reactor ~ t :: pending w'.reactor)

variable {w : TimerRun κ} {r : Reactor κ} {m : Nat → Option (TimerEntry κ)} {free : List Nat}

theorem mem_pending (h : r.Sane m free) (t : Timer κ) :
    t ∈ pending r ↔ ∃ s e, m s = some e ∧ e.timer = t := by
  rw [pending, List.mem_map]
  constructor
  · rintro ⟨e, he, rfl⟩
    exact ⟨e.slot, e, (h.holds.mem_cellList e).mp he, rfl⟩
  · rintro ⟨s, e, hs, rfl⟩
    refine ⟨e, (h.holds.mem_cellList e).mpr ?_, rfl⟩
    rw [(h.holds.entry s e hs).1, hs]

theorem pending_remove {s : Nat} {e : TimerEntry κ} (h : r.Sane m free) (hs : m s = some e) :
    (pending r).Perm (e.timer :: pending (r.remove s)) := by
  obtain ⟨free', h', _⟩ := h.remove hs
  exact (h.holds.perm_cons hs h'.holds).map TimerEntry.timer

theorem pending_added {r' : Reactor κ} {free' : List Nat} {e : TimerEntry κ} (h : r.Sane m free)
    (ha : Reactor.Added r r' m free free' e) : (pending r').Perm (e.timer :: pending r) := by
  have hback : r.Holds (Function.update (Function.update m e.slot (some e)) e.slot none) := by
    rw [Function.update_idem, Function.update_eq_self_iff.mpr ha.unused.symm]
    exact h.holds
  exact (ha.sane.holds.perm_cons (Function.update_self ..) hback).map TimerEntry.timer

@[simp] theorem issued_note (w : TimerRun κ) (n : TimerNote κ) :
    (w.note n).issued = w.issued ++ n.issued.toList := by
  cases h : n.issued <;> simp [TimerRun.issued, note, h]

@[simp] theorem ended_note (w : TimerRun κ) (n : TimerNote κ) :
    (w.note n).ended = w.ended ++ n.ended.toList := by
  cases h : n.ended <;> simp [TimerRun.ended, note, h]

/-- A pending timer is cancelled or fires. -/
theorem Kept.over {s : Nat} {e : TimerEntry κ} {n : TimerNote κ} (h : w.Kept m free)
    (hs : m s = some e) (hissued : n.issued = none) (hended : n.ended = some e.timer)
    (hdue : ∀ t pass clock, n = .fired t pass clock → t.deadlineMs ≤ clock) :
    ∃ m' free', ({ w with reactor := w.reactor.remove s }.note n).Kept m' free' := by
  obtain ⟨free', hsane, hsame, _⟩ := h.sane.remove hs
  have hperm := pending_remove h.sane hs
  refine ⟨_, free', hsane, ?_, ?_, ?_, ?_, h.pass_le⟩
  · intro t ht
    rw [issued_note, hissued, Option.toList_none, List.append_nil] at ht
    exact (hsame t.id).mpr (h.issued t ht)
  · rw [issued_note, hissued, Option.toList_none, List.append_nil]
    exact h.nodup
  · rw [issued_note, ended_note, hissued, hended, Option.toList_none, List.append_nil]
    refine List.Perm.trans ?_ h.once
    calc pending (w.reactor.remove s) ++ (w.ended ++ [e.timer])
        ~ e.timer :: (pending (w.reactor.remove s) ++ w.ended) := by
          rw [← List.append_assoc]
          exact List.perm_append_singleton _ _
      _ ~ pending w.reactor ++ w.ended := (hperm.append_right w.ended).symm
  · intro t pass clock hmem
    rcases List.mem_append.mp hmem with hmem | hmem
    · exact h.due t pass clock hmem
    · exact hdue t pass clock (List.mem_singleton.mp hmem).symm

theorem Kept.add (h : w.Kept m free) (delayMs : Nat) (cb : Option κ) (heapMem slotMem : Bool) :
    ∃ m' free', (w.add delayMs cb heapMem slotMem).Kept m' free' ∧
      Moved w (.add delayMs cb heapMem slotMem) (w.add delayMs cb heapMem slotMem) := by
  unfold TimerRun.add
  obtain ⟨hid, hsane, hsame, htimers, hcount, _⟩ | ⟨f, e, free', rfl, hid, hdl, hcb, hadd⟩ :=
    h.sane.addTimer w.nowMs delayMs cb heapMem slotMem
  · have hpending : pending (w.reactor.addTimer w.nowMs delayMs cb heapMem slotMem).1 =
        pending w.reactor := by rw [pending, pending, htimers, hcount]
    have hkept : { w with
        reactor := (w.reactor.addTimer w.nowMs delayMs cb heapMem slotMem).1 }.Kept m free :=
      ⟨hsane, fun t ht => (hsame t.id).mpr (h.issued t ht), h.nodup, hpending ▸ h.once, h.due,
        h.pass_le⟩
    cases cb with
    | none => exact ⟨m, free, hkept, .same rfl hpending⟩
    | some f =>
      simp only [hid, if_true]
      exact ⟨m, free, hkept, .same rfl hpending⟩
  · have hne : e.id ≠ CLOAK_TIMER_INVALID := by
      rw [hadd.sane.named e.slot e (Function.update_self ..)]
      exact Reactor.handle_ne_invalid
    have ht : (⟨e.id, (w.nowMs + delayMs) % 2 ^ 64, f⟩ : Timer κ) = e.timer := by
      rw [TimerEntry.timer, hdl, hcb]
    have hperm := pending_added h.sane hadd
    simp only [hid, if_neg hne, ht]
    refine ⟨_, free', ⟨hadd.sane, ?_, ?_, ?_, ?_, h.pass_le⟩,
      .added e.timer delayMs (some f) heapMem slotMem rfl rfl hperm hdl⟩
    · intro t hmem
      rw [issued_note] at hmem
      rcases List.mem_append.mp hmem with hmem | hmem
      · exact (hadd.issued t.id).mpr (Or.inl (h.issued t hmem))
      · rw [List.mem_singleton.mp hmem]
        exact (hadd.issued e.id).mpr (Or.inr rfl)
    · rw [issued_note]
      simp only [TimerNote.issued, Option.toList_some, List.map_append, List.map_cons, List.map_nil]
      refine List.Nodup.append h.nodup (List.nodup_singleton _) ?_
      intro id hold hnew
      obtain ⟨t, htmem, rfl⟩ := List.mem_map.mp hold
      rw [List.mem_singleton] at hnew
      exact hadd.new (by simpa [hnew, TimerEntry.timer] using h.issued t htmem)
    · rw [issued_note, ended_note]
      simp only [TimerNote.issued, TimerNote.ended, Option.toList_some, Option.toList_none,
        List.append_nil]
      calc pending (w.reactor.addTimer w.nowMs delayMs (some f) heapMem slotMem).1 ++ w.ended
          ~ e.timer :: (pending w.reactor ++ w.ended) := hperm.append_right w.ended
        _ ~ e.timer :: w.issued := h.once.cons _
        _ ~ w.issued ++ [e.timer] := (List.perm_append_singleton _ _).symm
    · intro t pass clock hmem
      rcases List.mem_append.mp hmem with hmem | hmem
      · exact h.due t pass clock hmem
      · cases List.mem_singleton.mp hmem

theorem Kept.cancel (h : w.Kept m free) (id : Nat) :
    ∃ m' free', (w.cancel id).Kept m' free' ∧ Moved w (.cancel id) (w.cancel id) := by
  unfold TimerRun.cancel Reactor.cancelTimer
  cases hl : w.reactor.lookup id with
  | none => exact ⟨m, free, h, .same rfl rfl⟩
  | some s =>
    obtain ⟨e, hs, _⟩ := (h.sane.lookup_eq_some id s).mp hl
    have hcell : w.reactor.timers (w.reactor.heapPos s) = e := (h.sane.holds.entry s e hs).2.2
    dsimp only
    rw [hcell]
    obtain ⟨m', free', hkept⟩ := h.over (n := .cancelled e.timer) hs rfl rfl (by simp)
    exact ⟨m', free', hkept, .cancelled e.timer rfl (pending_remove h.sane hs)⟩

/-- The next timer to fire is pending, and what `process_expired_timers` does is to remove it. -/
theorem expired_eq_some {now : Nat} {e : TimerEntry κ} (h : r.Sane m free)
    (he : r.expired now = some e) : m e.slot = some e ∧ r.fireTop = r.remove e.slot ∧
      e.deadlineMs ≤ now ∧ ∀ t ∈ pending r, e.deadlineMs ≤ t.deadlineMs := by
  unfold Reactor.expired at he
  split at he
  · rename_i hcount
    split at he
    · cases he
    · rename_i hnow
      cases he
      obtain ⟨hpos, hm⟩ := h.holds.cell 0 hcount.1
      refine ⟨hm, by rw [Reactor.fireTop, Reactor.remove, hpos], not_lt.mp hnow, ?_⟩
      intro t ht
      obtain ⟨s, e, hs, rfl⟩ := (mem_pending h t).mp ht
      obtain ⟨_, hlt, hcell⟩ := h.holds.entry s e hs
      exact hcell ▸ h.ordered.root_le _ hlt
  · cases he

theorem Kept.turn (h : w.Kept m free) :
    ∃ m' free', w.turn.Kept m' free' ∧ Moved w .turn w.turn := by
  unfold TimerRun.turn
  cases hp : w.pass with
  | none => exact ⟨m, free, h, .same rfl rfl⟩
  | some now =>
    dsimp only
    cases he : w.reactor.expired now with
    | none => exact ⟨m, free, ⟨h.sane, h.issued, h.nodup, h.once, h.due, by simp⟩, .same rfl rfl⟩
    | some top =>
      obtain ⟨hs, hfire, hdl, hleast⟩ := expired_eq_some h.sane he
      dsimp only
      rw [hfire]
      obtain ⟨m', free', hkept⟩ := h.over (n := .fired top.timer w.passes w.clock) hs rfl rfl (by
        rintro t pass clock hn
        cases hn
        exact hdl.trans (h.pass_le now hp))
      rw [hp] at hkept
      exact ⟨m', free', hkept, .fired top.timer now hp hdl hleast rfl (pending_remove h.sane hs)⟩

theorem Kept.beginPass (h : w.Kept m free) :
    w.beginPass.Kept m free ∧ Moved w .beginPass w.beginPass := by
  unfold TimerRun.beginPass
  split
  · refine ⟨⟨h.sane, h.issued, h.nodup, h.once, h.due, ?_⟩, .same rfl rfl⟩
    rintro now hnow
    cases hnow
    exact Nat.mod_le _ _
  · exact ⟨h, .same rfl rfl⟩

theorem Kept.step (h : w.Kept m free) (e : TimerEvent κ) :
    ∃ m' free', (w.step e).Kept m' free' ∧ Moved w e (w.step e) := by
  cases e with
  | tick ms =>
    exact ⟨m, free, ⟨h.sane, h.issued, h.nodup, h.once, h.due,
      fun now hnow => (h.pass_le now hnow).trans (Nat.le_add_right _ _)⟩, .same rfl rfl⟩
  | add delayMs cb heapMem slotMem => exact h.add delayMs cb heapMem slotMem
  | cancel id => exact h.cancel id
  | stop =>
    exact ⟨m, free, ⟨h.sane.congr w.reactor.timerCap true, h.issued, h.nodup, h.once, h.due,
      h.pass_le⟩, .same rfl rfl⟩
  | start =>
    exact ⟨m, free, ⟨h.sane.congr w.reactor.timerCap false, h.issued, h.nodup, h.once, h.due,
      h.pass_le⟩, .same rfl rfl⟩
  | beginPass => exact ⟨m, free, h.beginPass⟩
  | turn => exact h.turn

theorem kept_run [Inhabited κ] (es : List (TimerEvent κ)) :
    ∃ m free, (Lib.run step create es).Kept m free :=
  Lib.run_invariant (P := fun w : TimerRun κ => ∃ m free, w.Kept m free) ⟨_, _, .create⟩
    (fun _ e ⟨_, _, h⟩ => by
      obtain ⟨m', free', h', _⟩ := h.step e
      exact ⟨m', free', h'⟩) es

/-! ## The order within a pass -/

/-- The deadline of a timer to be added fits the 64 bits it is kept in. -/
def NoWrap (w : TimerRun κ) : TimerEvent κ → Prop
  | .add delayMs _ _ _ => w.clock + delayMs < 2 ^ 64
  | _ => True

instance (w : TimerRun κ) : (e : TimerEvent κ) → Decidable (w.NoWrap e)
  | .add delayMs _ _ _ => inferInstanceAs (Decidable (w.clock + delayMs < 2 ^ 64))
  | .tick _ | .cancel _ | .stop | .start | .beginPass | .turn => .isTrue trivial

/-- The timers that fired in one pass fired in the order of their deadlines. -/
def InOrder (log : List (TimerNote κ)) : Prop :=
  log.Pairwise fun n n' => ∀ t t' pass clock clock', n = .fired t pass clock →
    n' = .fired t' pass clock' → t.deadlineMs ≤ t'.deadlineMs

/-- What a run without wrapped deadlines keeps: a timer that fired in this pass was due no later
    than those that are still pending. -/
structure Paced (w : TimerRun κ) : Prop where
  inOrder : InOrder w.log
  numbered : ∀ t pass clock, .fired t pass clock ∈ w.log → pass ≤ w.passes
  first : ∀ now, w.pass = some now → ∀ t clock, .fired t w.passes clock ∈ w.log →
    t.deadlineMs ≤ now ∧ ∀ t' ∈ pending w.reactor, t.deadlineMs ≤ t'.deadlineMs
  due : ∀ t due, .added t due ∈ w.log → t.deadlineMs = due

theorem Paced.create [Inhabited κ] : (create : TimerRun κ).Paced := by
  constructor <;> simp [InOrder, TimerRun.create]

/-- A note that is not of a timer that fired. -/
theorem InOrder.append {log : List (TimerNote κ)} {n : TimerNote κ} (h : InOrder log)
    (hn : ∀ t pass clock, n = .fired t pass clock → ∀ t' clock', .fired t' pass clock' ∈ log →
      t'.deadlineMs ≤ t.deadlineMs) : InOrder (log ++ [n]) := by
  refine List.pairwise_append.mpr ⟨h, List.pairwise_singleton _ _, ?_⟩
  rintro n₁ hn₁ n₂ hn₂ t t' pass clock clock' rfl rfl
  exact hn t' pass clock' (List.mem_singleton.mp hn₂).symm t clock hn₁

/-- The pass and its number are the same after the step, or the pass is over, or it is a new one. -/
theorem step_pass (w : TimerRun κ) (e : TimerEvent κ) :
    (w.step e).passes = w.passes ∧ ((w.step e).pass = w.pass ∨ (w.step e).pass = none) ∨
      (w.step e).passes = w.passes + 1 ∧ (w.step e).log = w.log := by
  cases e with
  | tick | stop | start => exact Or.inl ⟨rfl, Or.inl rfl⟩
  | add delayMs cb heapMem slotMem =>
    refine Or.inl ?_
    unfold step add
    cases cb with
    | none => exact ⟨rfl, Or.inl rfl⟩
    | some f =>
      dsimp only
      split
      · exact ⟨rfl, Or.inl rfl⟩
      · exact ⟨rfl, Or.inl rfl⟩
  | cancel id =>
    refine Or.inl ?_
    change (w.cancel id).passes = w.passes ∧ ((w.cancel id).pass = w.pass ∨ _)
    unfold cancel
    cases w.reactor.lookup id with
    | none => exact ⟨rfl, Or.inl rfl⟩
    | some slot => exact ⟨rfl, Or.inl rfl⟩
  | beginPass =>
    rw [step, beginPass]
    split
    · exact Or.inr ⟨rfl, rfl⟩
    · exact Or.inl ⟨rfl, Or.inl rfl⟩
  | turn =>
    refine Or.inl ?_
    change w.turn.passes = w.passes ∧ (w.turn.pass = w.pass ∨ w.turn.pass = none)
    unfold turn
    cases hp : w.pass with
    | none => exact ⟨rfl, Or.inl hp⟩
    | some now =>
      dsimp only
      cases w.reactor.expired now with
      | none => exact ⟨rfl, Or.inr rfl⟩
      | some top => exact ⟨rfl, Or.inl rfl⟩

/-- A step that makes no note of a timer that fired. -/
theorem Paced.quiet {w' : TimerRun κ} {e : TimerEvent κ} (h : w.Paced) (hw' : w.step e = w')
    (hfired : ∀ t pass clock, .fired t pass clock ∈ w'.log → .fired t pass clock ∈ w.log)
    (hinOrder : InOrder w'.log) (hdue : ∀ t due, .added t due ∈ w'.log → t.deadlineMs = due)
    (hpending : ∀ now, w.pass = some now → ∀ t' ∈ pending w'.reactor,
      t' ∈ pending w.reactor ∨ now ≤ t'.deadlineMs) : w'.Paced := by
  subst hw'
  obtain ⟨hpasses, hpass⟩ | ⟨hpasses, _⟩ := w.step_pass e
  · refine ⟨hinOrder, fun t pass clock hmem => ?_, fun now hnow t clock hmem => ?_, hdue⟩
    · rw [hpasses]
      exact h.numbered t pass clock (hfired t pass clock hmem)
    · have hnow' : w.pass = some now := by
        rcases hpass with hpass | hpass
        · exact hpass.symm.trans hnow
        · rw [hpass] at hnow
          cases hnow
      rw [hpasses] at hmem
      obtain ⟨hle, hleast⟩ := h.first now hnow' t clock (hfired t _ clock hmem)
      refine ⟨hle, fun t' ht' => ?_⟩
      rcases hpending now hnow' t' ht' with hold | hnew
      · exact hleast t' hold
      · exact hle.trans hnew
  · refine ⟨hinOrder, fun t pass clock hmem => ?_, fun now _ t clock hmem => ?_, hdue⟩
    · rw [hpasses]
      exact Nat.le_succ_of_le (h.numbered t pass clock (hfired t pass clock hmem))
    · -- nothing fired in the new pass yet
      rw [hpasses] at hmem
      have hle := h.numbered t _ clock (hfired t _ clock hmem)
      omega

theorem Paced.step (h : w.Paced) (hk : w.Kept m free) (e : TimerEvent κ) (he : w.NoWrap e) :
    (w.step e).Paced := by
  obtain ⟨_, _, hk', hmoved⟩ := hk.step e
  cases hmoved with
  | same log pending =>
    refine h.quiet rfl ?_ ?_ ?_ fun _ _ t' ht' => Or.inl (pending ▸ ht')
    all_goals rw [log]
    · exact fun _ _ _ hmem => hmem
    · exact h.inOrder
    · exact h.due
  | added t delayMs cb heapMem slotMem event log pending deadline =>
    subst event
    have hfit : w.clock + delayMs < 2 ^ 64 := he
    have hclock : w.nowMs = w.clock := Nat.mod_eq_of_lt (by omega)
    rw [hclock, Nat.mod_eq_of_lt hfit] at deadline
    refine h.quiet rfl ?_ ?_ ?_ fun now hnow t' ht' => ?_
    · rw [log]
      intro t' pass clock hmem
      simpa using hmem
    · rw [log]
      exact h.inOrder.append (by simp)
    · rw [log]
      intro t' due hmem
      rcases List.mem_append.mp hmem with hmem | hmem
      · exact h.due t' due hmem
      · cases List.mem_singleton.mp hmem
        exact deadline
    · rcases List.mem_cons.mp (pending.mem_iff.mp ht') with rfl | hold
      · have hle := hk.pass_le now hnow
        exact Or.inr (by omega)
      · exact Or.inl hold
  | cancelled t log pending =>
    refine h.quiet rfl ?_ ?_ ?_ fun _ _ t' ht' =>
      Or.inl (pending.mem_iff.mpr (List.mem_cons_of_mem t ht'))
    all_goals rw [log]
    · intro t' pass clock hmem
      simpa using hmem
    · exact h.inOrder.append (by simp)
    · intro t' due hmem
      exact h.due t' due (by simpa using hmem)
  | fired t now hp hdue hleast log pending =>
    have hpasses : (w.step e).passes = w.passes ∧
        ((w.step e).pass = w.pass ∨ (w.step e).pass = none) := by
      refine (w.step_pass e).resolve_right fun hnew => ?_
      rw [log] at hnew
      simpa using hnew.2
    refine ⟨?_, ?_, ?_, ?_⟩
    · rw [log]
      refine h.inOrder.append ?_
      rintro t₁ pass clock heq t' clock' hmem
      cases heq
      exact (h.first now hp t' clock' hmem).2 t (pending.mem_iff.mpr List.mem_cons_self)
    · rw [log, hpasses.1]
      intro t' pass clock hmem
      rcases List.mem_append.mp hmem with hmem | hmem
      · exact h.numbered t' pass clock hmem
      · cases List.mem_singleton.mp hmem
        exact le_rfl
    · intro now' hnow' t' clock hmem
      have hnow : now' = now := by
        rcases hpasses.2 with hpass | hpass
        · rw [hpass, hp] at hnow'
          exact (Option.some.inj hnow').symm
        · rw [hpass] at hnow'
          cases hnow'
      have hold : ∀ t₁ ∈ TimerRun.pending (w.step e).reactor, t₁ ∈ TimerRun.pending w.reactor :=
        fun t₁ ht₁ => pending.mem_iff.mpr (List.mem_cons_of_mem t ht₁)
      rw [log, hpasses.1] at hmem
      subst hnow
      rcases List.mem_append.mp hmem with hmem | hmem
      · obtain ⟨hle, hfirst⟩ := h.first now' hp t' clock hmem
        exact ⟨hle, fun t₁ ht₁ => hfirst t₁ (hold t₁ ht₁)⟩
      · cases List.mem_singleton.mp hmem
        exact ⟨hdue, fun t₁ ht₁ => hleast t₁ (hold t₁ ht₁)⟩
    · rw [log]
      intro t' due hmem
      exact h.due t' due (by simpa using hmem)

theorem paced_run [Inhabited κ] {es : List (TimerEvent κ)}
    (hes : Lib.Obeys step NoWrap create es) : (Lib.run step create es).Paced := by
  have hrun : (∃ m free, (Lib.run step create es).Kept m free) ∧ (Lib.run step create es).Paced := by
    refine Lib.run_guarded (P := fun w => (∃ m free, w.Kept m free) ∧ w.Paced) ?_
      ⟨⟨_, _, .create⟩, .create⟩ hes
    rintro w e ⟨⟨m, free, hk⟩, hp⟩ he
    obtain ⟨m', free', hk', _⟩ := hk.step e
    exact ⟨⟨m', free', hk'⟩, hp.step hk e he⟩
  exact hrun.2

/-! ## Main results -/

/-- A slot in use and the heap's cell of its timer refer to each other. -/
def BackPointers (r : Reactor κ) : Prop :=
  (∀ i, i < r.timerCount → (r.timers i).slot < r.slotsCount ∧
    (r.slots (r.timers i).slot).inUse = true ∧ r.heapPos (r.timers i).slot = i) ∧
  ∀ s, s < r.slotsCount → (r.slots s).inUse = true →
    r.heapPos s < r.timerCount ∧ (r.timers (r.heapPos s)).slot = s

/-- What the users of the timers rely on. -/
structure Sound (w : TimerRun κ) : Prop where
  ordered : w.reactor.HeapOrdered
  backPointers : BackPointers w.reactor
  divided : ∃ free, w.reactor.Divided free
  /-- No handle is issued twice. -/
  nodup : (w.issued.map Timer.id).Nodup
  /-- A timer is pending until it fires or is cancelled, once. -/
  once : (pending w.reactor ++ w.ended).Perm w.issued
  /-- No timer fires early. -/
  due : ∀ t pass clock, .fired t pass clock ∈ w.log → t.deadlineMs ≤ clock
  /-- Cancelling removes the timer it names, -/
  cancel : ∀ id, (pending (w.reactor.cancelTimer id)).Perm
    ((pending w.reactor).filter fun t => t.id ≠ id)
  /-- and does nothing when that timer is not pending. -/
  stale : ∀ id, (∀ t ∈ pending w.reactor, t.id ≠ id) → w.reactor.cancelTimer id = w.reactor

theorem Kept.backPointers (h : w.Kept m free) : BackPointers w.reactor := by
  constructor
  · intro i hi
    obtain ⟨hpos, hm⟩ := h.sane.holds.cell i hi
    have hsome : m (w.reactor.timers i).slot ≠ none := by simp [hm]
    obtain ⟨hlt, hu⟩ := (h.sane.used _).mp hsome
    exact ⟨hlt, hu, hpos⟩
  · intro s hs hu
    obtain ⟨e, he⟩ := Option.ne_none_iff_exists'.mp ((h.sane.used s).mpr ⟨hs, hu⟩)
    obtain ⟨hslot, hpos, hcell⟩ := h.sane.holds.entry s e he
    exact ⟨hpos, hcell ▸ hslot⟩

theorem Kept.stale (h : w.Kept m free) (id : Nat) (hid : ∀ t ∈ pending w.reactor, t.id ≠ id) :
    w.reactor.cancelTimer id = w.reactor := by
  unfold Reactor.cancelTimer
  cases hl : w.reactor.lookup id with
  | none => rfl
  | some s =>
    obtain ⟨e, hs, heid⟩ := (h.sane.lookup_eq_some id s).mp hl
    exact absurd heid (hid e.timer ((mem_pending h.sane _).mpr ⟨s, e, hs, rfl⟩))

theorem Kept.cancelTimer (h : w.Kept m free) (id : Nat) :
    (pending (w.reactor.cancelTimer id)).Perm
      ((pending w.reactor).filter fun t => t.id ≠ id) := by
  by_cases hid : ∀ t ∈ pending w.reactor, t.id ≠ id
  · rw [h.stale id hid, List.filter_eq_self.mpr (by simpa using hid)]
  · obtain ⟨t, ht, htid⟩ : ∃ t ∈ pending w.reactor, t.id = id := by
      simpa using hid
    obtain ⟨s, e, hs, rfl⟩ := (mem_pending h.sane t).mp ht
    have hl := (h.sane.lookup_eq_some id s).mpr ⟨e, hs, htid⟩
    have hperm := pending_remove h.sane hs
    have hnodup : ((e.timer :: pending (w.reactor.remove s)).map Timer.id).Nodup := by
      refine ((hperm.map Timer.id).nodup_iff).mp ?_
      have hall := ((h.once.map Timer.id).nodup_iff).mpr h.nodup
      rw [List.map_append] at hall
      exact hall.of_append_left
    have hother : ∀ t ∈ pending (w.reactor.remove s), t.id ≠ id := by
      intro t ht heq
      have hnew := (List.nodup_cons.mp hnodup).1
      exact hnew (List.mem_map.mpr ⟨t, ht, heq.trans htid.symm⟩)
    rw [Reactor.cancelTimer, hl]
    dsimp only
    refine List.Perm.trans ?_ (hperm.filter fun t => t.id ≠ id).symm
    rw [List.filter_cons_of_neg (by simpa using htid), List.filter_eq_self.mpr (by simpa using hother)]

theorem Kept.sound (h : w.Kept m free) : w.Sound :=
  ⟨h.sane.ordered, h.backPointers, ⟨free, h.sane.divided⟩, h.nodup, h.once, h.due, h.cancelTimer,
    h.stale⟩

/-- In every run of the reactor the timers are sound. As long as no deadline wraps, the timers of
    one pass also fire in order, and no timer fires before its delay is over. -/
theorem timers_sound [Inhabited κ] (es : List (TimerEvent κ)) :
    (Lib.run step create es).Sound ∧
      (Lib.Obeys step NoWrap create es →
        InOrder (Lib.run step create es).log ∧
        ∀ t due pass clock, .added t due ∈ (Lib.run step create es).log →
          .fired t pass clock ∈ (Lib.run step create es).log → due ≤ clock) := by
  obtain ⟨m, free, hk⟩ := kept_run es
  refine ⟨hk.sound, fun hes => ?_⟩
  have hp := paced_run hes
  refine ⟨hp.inOrder, fun t due pass clock hadded hfired => ?_⟩
  rw [← hp.due t due hadded]
  exact hk.due t pass clock hfired

/-- Two timers fire in one pass, the later one first to be added. -/
theorem timers_sound_twoTimers :
    InOrder (Lib.run step (create : TimerRun Unit) [.add 5 (some ()) true true,
      .add 3 (some ()) true true, .tick 5, .beginPass, .turn, .turn]).log ∧
    (Lib.run step (create : TimerRun Unit) [.add 5 (some ()) true true,
      .add 3 (some ()) true true, .tick 5, .beginPass, .turn, .turn]).log =
      [.added ⟨1, 5, ()⟩ 5, .added ⟨2, 3, ()⟩ 3, .fired ⟨2, 3, ()⟩ 1 5, .fired ⟨1, 5, ()⟩ 1 5] :=
  ⟨((timers_sound [.add 5 (some ()) true true, .add 3 (some ()) true true, .tick 5, .beginPass,
    .turn, .turn]).2 (by decide +kernel)).1, by decide +kernel⟩

/-! ## A slot that runs out of generations

A timer that is added and cancelled again and again takes the same slot every time. After `2 ^ 44`
times the slot is neither in use nor on the free list. -/

/-- Slot 0 is the only slot, and it has had `gen` timers. -/
structure OneSlot (r : Reactor κ) (gen : Nat) (busy : Bool) : Prop where
  slotsCount : r.slotsCount = 1
  timerCount : r.timerCount = if busy then 1 else 0
  freeSlot : r.freeSlot = if busy then none else some 0
  nextFree : (r.slots 0).nextFree = none
  gen : (r.slots 0).gen = gen
  inUse : (r.slots 0).inUse = busy
  heapPos : busy = true → r.heapPos 0 = 0

/-- `n` timers, each cancelled before the next. -/
def rearmed (n : Nat) : List (TimerEvent Unit) :=
  (List.range n).flatMap fun gen => [.add 0 (some ()) true true, .cancel (Reactor.handle gen 0)]

theorem rearmed_succ (n : Nat) : rearmed (n + 1) =
    rearmed n ++ [.add 0 (some ()) true true, .cancel (Reactor.handle n 0)] := by
  simp [rearmed, List.range_succ, List.flatMap_append]

theorem add_reactor (w : TimerRun Unit) :
    (w.step (.add 0 (some ()) true true)).reactor =
      (w.reactor.addTimer w.nowMs 0 (some ()) true true).1 := by
  change (w.add 0 (some ()) true true).reactor = _
  unfold add
  dsimp only
  split <;> rfl

theorem cancel_reactor (w : TimerRun Unit) (id : Nat) :
    (w.step (.cancel id)).reactor = w.reactor.cancelTimer id := by
  change (w.cancel id).reactor = _
  unfold cancel
  dsimp only
  split <;> rfl

theorem timerHeapEnsureCapacity_true (r : Reactor κ) :
    ∃ cap, r.timerHeapEnsureCapacity true = some { r with timerCap := cap } := by
  unfold Reactor.timerHeapEnsureCapacity
  split
  · exact ⟨r.timerCap, rfl⟩
  · exact ⟨_, rfl⟩

theorem oneSlot_create (now : Nat) (f : κ) [Inhabited κ] :
    OneSlot ((Reactor.create : Reactor κ).addTimer now 0 (some f) true true).1 0 true := by
  constructor <;>
    simp [Reactor.addTimer, Reactor.create, Reactor.timerHeapEnsureCapacity,
      Reactor.timerSlotAlloc, TIMER_MAX_SLOTS, TIMER_SLOT_BITS, Reactor.heapSiftUp,
      Reactor.siftUpLoop, Reactor.timerPlace, Reactor.heapPos]

theorem OneSlot.add {gen : Nat} (h : OneSlot r gen false) (now : Nat) (f : κ) :
    OneSlot (r.addTimer now 0 (some f) true true).1 gen true := by
  obtain ⟨cap, hcap⟩ := timerHeapEnsureCapacity_true r
  have hcount := h.timerCount
  have hfree := h.freeSlot
  simp only [Bool.false_eq_true, if_false] at hcount hfree
  constructor <;>
    simp [Reactor.addTimer, hcap, hfree, hcount, h.slotsCount, h.gen, h.nextFree,
      Reactor.timerSlotAlloc, Reactor.heapSiftUp, Reactor.siftUpLoop, Reactor.timerPlace,
      Reactor.heapPos]

theorem OneSlot.lookup {gen : Nat} (h : OneSlot r gen true) :
    r.lookup (Reactor.handle gen 0) = some 0 := by
  have hmod := Reactor.handle_mod gen (s := 0) (by decide)
  have hshift := Reactor.handle_shift gen (s := 0) (by decide)
  simp [Reactor.lookup, Reactor.handle_ne_invalid, hmod, hshift, h.slotsCount, h.inUse, h.gen]

theorem OneSlot.cancel {gen : Nat} (h : OneSlot r gen true) (hgen : gen < TIMER_GEN_MAX) :
    OneSlot (r.cancelTimer (Reactor.handle gen 0)) (gen + 1) false := by
  have hcount := h.timerCount
  have hfree := h.freeSlot
  simp only [if_true] at hcount hfree
  rw [Reactor.cancelTimer, h.lookup]
  constructor <;>
    simp [Reactor.remove, h.heapPos, Reactor.heapRemoveAt, hcount, Reactor.timerSlotFree, h.gen, hgen,
      h.slotsCount, hfree]

/-- The last timer that slot 0 can have. -/
theorem OneSlot.cancel_last (h : OneSlot r TIMER_GEN_MAX true) :
    (r.cancelTimer (Reactor.handle TIMER_GEN_MAX 0)).slotsCount = 1 ∧
      (r.cancelTimer (Reactor.handle TIMER_GEN_MAX 0)).freeSlot = none ∧
      ((r.cancelTimer (Reactor.handle TIMER_GEN_MAX 0)).slots 0).inUse = false := by
  have hcount := h.timerCount
  have hfree := h.freeSlot
  simp only [if_true] at hcount hfree
  rw [Reactor.cancelTimer, h.lookup]
  simp [Reactor.remove, h.heapPos, Reactor.heapRemoveAt, hcount, Reactor.timerSlotFree, h.gen,
    h.slotsCount, hfree]

/-- Up to the last generation the slot is free again after each timer. -/
theorem oneSlot_rearmed (gen : Nat) (hgen : gen ≤ TIMER_GEN_MAX) :
    OneSlot ((Lib.run step create (rearmed gen)).step (.add 0 (some ()) true true)).reactor gen
      true := by
  induction gen with
  | zero =>
    rw [add_reactor]
    exact oneSlot_create _ ()
  | succ gen ih =>
    rw [add_reactor, rearmed_succ, Lib.run_append]
    change OneSlot (((((Lib.run step create (rearmed gen)).step (.add 0 (some ()) true true)).step
      (.cancel (Reactor.handle gen 0))).reactor).addTimer _ 0 (some ()) true true).1 _ _
    rw [cancel_reactor]
    exact ((ih (by omega)).cancel (by omega)).add _ ()

theorem rearmed_retired {n : Nat} (hn : n = TIMER_GEN_MAX) :
    (Lib.run step create (rearmed (n + 1))).reactor.slotsCount = 1 ∧
      (Lib.run step create (rearmed (n + 1))).reactor.freeSlot = none ∧
      ((Lib.run step create (rearmed (n + 1))).reactor.slots 0).inUse = false := by
  have hbusy := oneSlot_rearmed n (le_of_eq hn)
  have hrun : (Lib.run step create (rearmed (n + 1))).reactor =
      ((Lib.run step create (rearmed n)).step (.add 0 (some ()) true true)).reactor.cancelTimer
        (Reactor.handle n 0) := by
    rw [rearmed_succ, Lib.run_append]
    exact cancel_reactor _ _
  rw [hrun]
  subst hn
  exact hbusy.cancel_last

/-- The slots in use and the free list do not make up all slots, and a deadline that wraps fires
    out of order and before its delay is over. -/
theorem timers_retired_and_wrapped :
    (∃ n, ¬ ∃ free, Reactor.Threaded (Lib.run step create (rearmed n)).reactor.slots
        (Lib.run step create (rearmed n)).reactor.freeSlot free ∧
      ∀ s, s < (Lib.run step create (rearmed n)).reactor.slotsCount →
        ((Lib.run step create (rearmed n)).reactor.slots s).inUse = true ∨ s ∈ free) ∧
    (Lib.run step (create : TimerRun Unit) [.tick 5, .add 0 (some ()) true true, .beginPass, .turn,
      .add (2 ^ 64 - 1) (some ()) true true, .turn]).log =
      [.added ⟨1, 5, ()⟩ 5, .fired ⟨1, 5, ()⟩ 1 5, .added ⟨1048577, 4, ()⟩ (5 + (2 ^ 64 - 1)),
        .fired ⟨1048577, 4, ()⟩ 1 5] := by
  refine ⟨⟨TIMER_GEN_MAX + 1, ?_⟩, by decide +kernel⟩
  obtain ⟨hcount, hfree, huse⟩ := rearmed_retired rfl
  rintro ⟨free, hthreaded, hall⟩
  rw [hfree] at hthreaded
  cases free with
  | nil =>
    have h0 := hall 0 (by rw [hcount]; exact Nat.one_pos)
    rw [huse] at h0
    simp at h0
  | cons s free => exact absurd hthreaded.1 (by simp)

end TimerRun

end Cloak
