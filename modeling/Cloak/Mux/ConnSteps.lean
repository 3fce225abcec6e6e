import Mathlib.Logic.Relation
import Cloak.Mux.ConnLink

set_option autoImplicit false

/-! # Connections, one step at a time

A connection calls out in the middle of its work: it hands an envelope up, it reports a drained
queue, it reports that it is broken. What the callee does, on this connection or on any other one,
happens right there. `ConnEv` cuts the callbacks of a connection at those calls, so that a list of
events, in any order, covers every nesting: `reactorCb_reaches` and `rxResume_reaches` say that the
two reactor callbacks are made of these steps, whatever steps their callee takes.

`Kept` is what one step can do. Apart from constants it says two things: the registered interest
stays in step with the send queue and every valve pause keeps its timer (`Synced`), and a queue that
runs empty is reported. -/

namespace Cloak

open Lib

/-- One step of a connection: a call from its owner, or a part of a reactor callback. -/
inductive ConnEv where
  | send (frame : List UInt8) (kernel : List SendRes) (keys : List MaskKey)
  | drain (kernel : List SendRes)
  | read (allowed : Nat) (bs : List UInt8)
  | dispatch (kernel : List SendRes) (keys : List MaskKey)
  | pauseForRate (timerOk : Bool)
  | rxTimer
  | hangUp

namespace ConnWorld

/-- The connection with what the kernel and the generator will answer next. -/
def facing (w : ConnWorld) (kernel : List SendRes) (keys : List MaskKey) : ConnWorld :=
  { w with kernel := kernel, keys := keys }

/-- One step. A broken connection takes no part in any of them but its own timer. -/
def step (w : ConnWorld) (ev : ConnEv) : ConnWorld :=
  match ev with
  | .send frame kernel keys => ((w.facing kernel keys).send frame).1
  | .drain kernel => if w.conn.broken then w else (w.facing kernel w.keys).tryDrainSend
  | .read allowed bs =>
    if w.conn.broken then w
    else { w with conn := { w.conn with
             recvAcc := (w.conn.recvAcc.write (bs.take (w.readWant allowed))).1 } }
  | .dispatch kernel keys =>
    if w.conn.broken then w else (dispatchOnce .ignore (w.facing kernel keys)).1
  | .pauseForRate timerOk => if w.conn.broken then w else w.pauseReadForRate timerOk
  | .rxTimer => if w.conn.rxResumeTimer then rxResume .ignore w [] else w
  | .hangUp => w.markBroken

/-- The flags of a connection agree with its queue: it waits for the socket exactly while something
    is queued, what it waits for is registered, and a valve pause has its timer. -/
structure Synced (w : ConnWorld) : Prop where
  want : w.conn.wantWritable = true ↔ w.conn.sendQ.len ≠ 0
  interest : w.conn.interest = w.conn.desiredInterest
  paused : w.conn.readPaused = true → w.conn.rxResumeTimer = true

/-- What one step can do to a connection. -/
structure Kept (w w' : ConnWorld) : Prop where
  framing : w'.conn.framing = w.conn.framing
  maxFrameLen : w'.conn.maxFrameLen = w.conn.maxFrameLen
  cap : w'.conn.sendQ.cap = w.conn.sendQ.cap
  closed : w'.conn.sendQ.closed = w.conn.sendQ.closed
  broken : w.conn.broken = true → w'.conn.broken = true
  drained : w.drained ≤ w'.drained
  synced : w'.conn.broken = false → w.Synced → w'.Synced
  notices : w'.conn.broken = false → w.Synced → w.conn.sendQ.len ≠ 0 → w'.conn.sendQ.len = 0 →
    w.drained < w'.drained

/-! ## Draining -/

@[simp] theorem wantWritable_setWantWritable (c : Conn) (b : Bool) :
    (c.setWantWritable b).wantWritable = b := by
  unfold Conn.setWantWritable Conn.syncInterest
  split
  · assumption
  · split <;> rfl

@[simp] theorem readPaused_setWantWritable (c : Conn) (b : Bool) :
    (c.setWantWritable b).readPaused = c.readPaused := by
  unfold Conn.setWantWritable Conn.syncInterest
  repeat' split
  all_goals rfl

@[simp] theorem rxResumeTimer_setWantWritable (c : Conn) (b : Bool) :
    (c.setWantWritable b).rxResumeTimer = c.rxResumeTimer := by
  unfold Conn.setWantWritable Conn.syncInterest
  repeat' split
  all_goals rfl

/-- After `conn_sync_interest` the registered mask is the desired one. -/
theorem interest_syncInterest (c : Conn) : c.syncInterest.interest = c.syncInterest.desiredInterest := by
  unfold Conn.syncInterest
  split
  · next h => exact h.symm
  · rfl

theorem interest_setWantWritable (c : Conn) (b : Bool) (h : c.interest = c.desiredInterest) :
    (c.setWantWritable b).interest = (c.setWantWritable b).desiredInterest := by
  unfold Conn.setWantWritable
  split
  · exact h
  · exact interest_syncInterest _

/-- What a drain keeps whatever the kernel answers. -/
structure DrainKept (w w' : ConnWorld) : Prop where
  framing : w'.conn.framing = w.conn.framing
  maxFrameLen : w'.conn.maxFrameLen = w.conn.maxFrameLen
  cap : w'.conn.sendQ.cap = w.conn.sendQ.cap
  closed : w'.conn.sendQ.closed = w.conn.sendQ.closed
  broken : w.conn.broken = true → w'.conn.broken = true
  drained : w.drained ≤ w'.drained
  readPaused : w'.conn.readPaused = w.conn.readPaused
  rxResumeTimer : w'.conn.rxResumeTimer = w.conn.rxResumeTimer
  interest : w.conn.interest = w.conn.desiredInterest → w'.conn.interest = w'.conn.desiredInterest

theorem drainLoop_kept (was : Bool) (fuel : Nat) (w : ConnWorld) :
    w.DrainKept (drainLoop was fuel w) := by
  induction fuel generalizing w with
  | zero => exact ⟨rfl, rfl, rfl, rfl, id, Nat.le_refl _, rfl, rfl, id⟩
  | succ fuel ih =>
    rw [drainLoop]
    split
    · refine ⟨?_, ?_, ?_, ?_, ?_, ?_, ?_, ?_, interest_setWantWritable _ _⟩ <;> simp
      split <;> omega
    · split
      · refine ⟨?_, ?_, ?_, ?_, ?_, ?_, ?_, ?_, interest_setWantWritable _ _⟩ <;> simp
      · refine ⟨?_, ?_, ?_, ?_, ?_, ?_, ?_, ?_, interest_setWantWritable _ _⟩ <;> simp
      · exact ⟨rfl, rfl, rfl, rfl, fun _ => rfl, Nat.le_refl _, rfl, rfl, id⟩
      · next k ks _ =>
        split
        · refine ⟨?_, ?_, ?_, ?_, ?_, ?_, ?_, ?_, fun h =>
            interest_setWantWritable { w.conn with sendQ := (w.conn.sendQ.read k).2 } true h⟩ <;> simp
        · have hk := ih
            { w with
              conn := { w.conn with sendQ := (w.conn.sendQ.read connIoChunk).2 }
              kernel := ks
              socket := w.socket ++ w.conn.sendQ.peek connIoChunk }
          exact ⟨hk.framing, hk.maxFrameLen, by rw [hk.cap, ByteQueue.cap_read],
            by rw [hk.closed, ByteQueue.closed_read], hk.broken, hk.drained, hk.readPaused,
            hk.rxResumeTimer, hk.interest⟩

/-- With enough fuel a drain that does not break the connection ends with the flag telling whether
    anything is left, and reports an empty queue if there was back-pressure. -/
theorem drainLoop_flag (was : Bool) (fuel : Nat) (w : ConnWorld) (hfuel : w.conn.sendQ.len < fuel)
    (hlive : (drainLoop was fuel w).conn.broken = false) :
    ((drainLoop was fuel w).conn.wantWritable = true
        ↔ (drainLoop was fuel w).conn.sendQ.len ≠ 0)
      ∧ (was = true → (drainLoop was fuel w).conn.sendQ.len = 0 →
        w.drained < (drainLoop was fuel w).drained) := by
  induction fuel generalizing w with
  | zero => omega
  | succ fuel ih =>
    rw [drainLoop] at hlive ⊢
    split at hlive
    · next hempty =>
      rw [if_pos hempty]
      simp only [wantWritable_setWantWritable, sendQ_setWantWritable]
      exact ⟨⟨fun h => absurd h (by decide), fun h => absurd hempty h⟩,
        fun hwas _ => by rw [if_pos hwas]; omega⟩
    · next hfull =>
      rw [if_neg hfull]
      split at hlive
      · simp only [wantWritable_setWantWritable, sendQ_setWantWritable]
        exact ⟨⟨fun _ => hfull, fun _ => trivial⟩, fun _ h => absurd h hfull⟩
      · simp only [wantWritable_setWantWritable, sendQ_setWantWritable]
        exact ⟨⟨fun _ => hfull, fun _ => trivial⟩, fun _ h => absurd h hfull⟩
      · exact absurd hlive (by simp [Conn.markBroken])
      · next k ks _ =>
        split at hlive
        · next hshort =>
          -- the kernel left part of the chunk, so something is still queued
          have hleft : (w.conn.sendQ.read k).2.len ≠ 0 := by
            rw [ByteQueue.len_read]
            omega
          rw [if_pos hshort]
          simp only [wantWritable_setWantWritable, sendQ_setWantWritable]
          exact ⟨⟨fun _ => hleft, fun _ => trivial⟩, fun _ h => absurd h hleft⟩
        · next hwhole =>
          rw [if_neg hwhole]
          have hpos : 0 < connIoChunk := by decide
          exact ih _ (by dsimp only; rw [ByteQueue.len_read]; omega) hlive

/-- What is unchanged when bytes have been queued and not yet drained. -/
structure Enqueued (w w' : ConnWorld) : Prop where
  framing : w'.conn.framing = w.conn.framing
  maxFrameLen : w'.conn.maxFrameLen = w.conn.maxFrameLen
  cap : w'.conn.sendQ.cap = w.conn.sendQ.cap
  closed : w'.conn.sendQ.closed = w.conn.sendQ.closed
  broken : w'.conn.broken = w.conn.broken
  drained : w'.drained = w.drained
  wantWritable : w'.conn.wantWritable = w.conn.wantWritable
  readPaused : w'.conn.readPaused = w.conn.readPaused
  rxResumeTimer : w'.conn.rxResumeTimer = w.conn.rxResumeTimer
  interest : w'.conn.interest = w.conn.interest

theorem Enqueued.refl (w : ConnWorld) : w.Enqueued w :=
  ⟨rfl, rfl, rfl, rfl, rfl, rfl, rfl, rfl, rfl, rfl⟩

/-- Queue and drain is one step: the drain asks the flag from before, which tells whether the queue
    was empty. -/
theorem Enqueued.kept_tryDrainSend {w w' : ConnWorld} (h : w.Enqueued w') :
    w.Kept w'.tryDrainSend := by
  have hk := drainLoop_kept w'.conn.wantWritable (w'.conn.sendQ.len + 1) w'
  have hflag := drainLoop_flag w'.conn.wantWritable (w'.conn.sendQ.len + 1) w' (by omega)
  refine ⟨?_, ?_, ?_, ?_, ?_, ?_, ?_, ?_⟩
  · rw [tryDrainSend, hk.framing, h.framing]
  · rw [tryDrainSend, hk.maxFrameLen, h.maxFrameLen]
  · rw [tryDrainSend, hk.cap, h.cap]
  · rw [tryDrainSend, hk.closed, h.closed]
  · exact fun hb => hk.broken (by rw [h.broken, hb])
  · exact h.drained ▸ hk.drained
  · intro hlive hs
    refine ⟨(hflag hlive).1, hk.interest ?_, ?_⟩
    · rw [h.interest, hs.interest, Conn.desiredInterest, Conn.desiredInterest, h.readPaused,
        h.wantWritable]
    · rw [tryDrainSend, hk.readPaused, hk.rxResumeTimer, h.readPaused, h.rxResumeTimer]
      exact hs.paused
  · intro hlive hs hlen hempty
    have hwas : w'.conn.wantWritable = true := by
      rw [h.wantWritable]
      exact hs.want.mpr hlen
    exact h.drained ▸ (hflag hlive).2 hwas hempty

/-- A step that breaks the connection. -/
theorem kept_of_broken {w w' : ConnWorld} (h : w.Enqueued w') : w.Kept w'.markBroken := by
  refine ⟨h.framing, h.maxFrameLen, h.cap, h.closed, fun _ => rfl, Nat.le_of_eq h.drained.symm, ?_, ?_⟩
  · intro hlive
    cases hlive
  · intro hlive
    cases hlive

/-- A step that leaves the send side alone. -/
theorem kept_of_sendQ {w w' : ConnWorld} (h : w.Enqueued w') (hq : w'.conn.sendQ = w.conn.sendQ) :
    w.Kept w' := by
  refine ⟨h.framing, h.maxFrameLen, h.cap, h.closed, fun hb => by rw [h.broken, hb],
    Nat.le_of_eq h.drained.symm, ?_, ?_⟩
  · intro _ hs
    refine ⟨by rw [h.wantWritable, hq]; exact hs.want, ?_, ?_⟩
    · rw [h.interest, hs.interest, Conn.desiredInterest, Conn.desiredInterest, h.readPaused,
        h.wantWritable]
    · rw [h.readPaused, h.rxResumeTimer]
      exact hs.paused
  · intro _ _ hlen hempty
    rw [hq] at hempty
    exact absurd hempty hlen

theorem Kept.refl (w : ConnWorld) : w.Kept w := kept_of_sendQ (.refl w) rfl

/-! ## Every step -/

@[simp] theorem cap_enqueueMasked (key : List UInt8) (fuel : Nat) (q : ByteQueue) (pos : Nat)
    (payload : List UInt8) : (enqueueMasked key fuel q pos payload).cap = q.cap := by
  induction fuel generalizing q pos payload with
  | zero => rfl
  | succ fuel ih =>
    rw [enqueueMasked]
    split
    · rfl
    · rw [ih, ByteQueue.cap_write]

@[simp] theorem closed_enqueueMasked (key : List UInt8) (fuel : Nat) (q : ByteQueue) (pos : Nat)
    (payload : List UInt8) : (enqueueMasked key fuel q pos payload).closed = q.closed := by
  induction fuel generalizing q pos payload with
  | zero => rfl
  | succ fuel ih =>
    rw [enqueueMasked]
    split
    · rfl
    · rw [ih, ByteQueue.closed_write]

theorem enqueued_facing (w : ConnWorld) (kernel : List SendRes) (keys : List MaskKey) :
    w.Enqueued (w.facing kernel keys) := ⟨rfl, rfl, rfl, rfl, rfl, rfl, rfl, rfl, rfl, rfl⟩

theorem Enqueued.trans {a b c : ConnWorld} (h : a.Enqueued b) (h' : b.Enqueued c) : a.Enqueued c :=
  ⟨h'.framing.trans h.framing, h'.maxFrameLen.trans h.maxFrameLen, h'.cap.trans h.cap,
    h'.closed.trans h.closed, h'.broken.trans h.broken, h'.drained.trans h.drained,
    h'.wantWritable.trans h.wantWritable, h'.readPaused.trans h.readPaused,
    h'.rxResumeTimer.trans h.rxResumeTimer, h'.interest.trans h.interest⟩

theorem enqueued_dropKey (w : ConnWorld) : w.Enqueued w.dropKey := by
  unfold dropKey
  split <;> exact ⟨rfl, rfl, rfl, rfl, rfl, rfl, rfl, rfl, rfl, rfl⟩

/-- `conn_ws_enqueue_frame` queues the frame or breaks the connection, for every kind of frame. -/
theorem wsEnqueueFrame_enqueued (w : ConnWorld) (op : WsOpcode) (payload : List UInt8) :
    w.wsEnqueueFrame op payload = (w.dropKey.markBroken, false)
      ∨ (w.wsEnqueueFrame op payload).2 = true ∧ w.Enqueued (w.wsEnqueueFrame op payload).1 := by
  have hk := w.enqueued_dropKey
  unfold wsEnqueueFrame
  split
  · exact Or.inl rfl
  · split
    · exact Or.inl rfl
    · refine Or.inr ⟨rfl, hk.framing, hk.maxFrameLen, ?_, ?_, hk.broken, hk.drained, hk.wantWritable,
        hk.readPaused, hk.rxResumeTimer, hk.interest⟩ <;> dsimp only <;> split <;> simp

theorem kept_of_wsRefused {w w' w'' : ConnWorld} {op : WsOpcode} {payload : List UInt8}
    (h : w.Enqueued w') (heq : w'.wsEnqueueFrame op payload = (w'', false)) : w.Kept w'' := by
  rcases w'.wsEnqueueFrame_enqueued op payload with hfail | ⟨hok, _⟩
  · rw [heq] at hfail
    rw [(Prod.mk.inj hfail).1]
    exact kept_of_broken (h.trans w'.enqueued_dropKey)
  · rw [heq] at hok
    cases hok

theorem enqueued_of_wsQueued {w w' w'' : ConnWorld} {op : WsOpcode} {payload : List UInt8}
    (h : w.Enqueued w') (heq : w'.wsEnqueueFrame op payload = (w'', true)) : w.Enqueued w'' := by
  rcases w'.wsEnqueueFrame_enqueued op payload with hfail | ⟨_, henq⟩
  · rw [heq] at hfail
    cases hfail
  · rw [heq] at henq
    exact h.trans henq

theorem Kept.markBroken {w w' : ConnWorld} (h : w.Kept w') : w.Kept w'.markBroken := by
  refine ⟨h.framing, h.maxFrameLen, h.cap, h.closed, fun _ => rfl, h.drained, ?_, ?_⟩
  · intro hlive
    cases hlive
  · intro hlive
    cases hlive

theorem send_kept {w w' : ConnWorld} (h : w.Enqueued w') (hq : w'.conn.sendQ = w.conn.sendQ)
    (frame : List UInt8) : w.Kept (w'.send frame).1 := by
  unfold send
  split
  · exact kept_of_sendQ h hq
  · split
    · exact kept_of_broken h
    · split
      · split
        · next heq => exact kept_of_wsRefused h heq
        · next heq => exact (enqueued_of_wsQueued h heq).kept_tryDrainSend
      · split
        · exact kept_of_broken h
        · split
          · exact kept_of_broken h
          · refine Enqueued.kept_tryDrainSend (h.trans ?_)
            exact ⟨rfl, rfl, by simp, by simp, rfl, rfl, rfl, rfl, rfl, rfl⟩

/-- A control frame is answered, ignored, or ends the connection. -/
theorem wsControl_kept {w w' : ConnWorld} (h : w.Enqueued w') (hq : w'.conn.sendQ = w.conn.sendQ)
    (hdr : WsFrameHeader) : w.Kept (w'.wsControl hdr).1 := by
  have htake : w.Enqueued (w'.wsTakePayload hdr).2 :=
    h.trans ⟨rfl, rfl, rfl, rfl, rfl, rfl, rfl, rfl, rfl, rfl⟩
  have hqtake : (w'.wsTakePayload hdr).2.conn.sendQ = w.conn.sendQ := hq
  unfold wsControl
  generalize w'.wsTakePayload hdr = r at htake hqtake
  obtain ⟨ctl, w''⟩ := r
  dsimp only
  split
  · split
    · next heq => exact kept_of_wsRefused htake heq
    · next heq => exact (enqueued_of_wsQueued htake heq).kept_tryDrainSend
  · split
    · exact kept_of_sendQ htake hqtake
    · -- the close is echoed as far as the socket takes it
      rcases heq : w''.wsEnqueueFrame .close ctl with ⟨w3, ok⟩
      dsimp only
      cases ok with
      | false =>
        have hk := kept_of_wsRefused htake heq
        split
        · exact hk.markBroken
        · next hlive =>
          rcases w''.wsEnqueueFrame_enqueued .close ctl with hfail | ⟨hok, _⟩
          · rw [heq] at hfail
            rw [(Prod.mk.inj hfail).1] at hlive
            exact absurd rfl hlive
          · rw [heq] at hok
            cases hok
      | true =>
        have henq := enqueued_of_wsQueued htake heq
        split
        · exact kept_of_broken henq
        · exact henq.kept_tryDrainSend.markBroken

/-- A turn of the dispatch loop only reads, apart from answering control frames. -/
theorem dispatchOnce_kept {w w' : ConnWorld} (h : w.Enqueued w')
    (hq : w'.conn.sendQ = w.conn.sendQ) : w.Kept (dispatchOnce .ignore w').1 := by
  -- the receive side is no part of `Enqueued`, so every read of it passes
  have hrecv : ∀ {acc : ByteQueue} {msg : List UInt8} {active : Bool} {deliv : List (List UInt8)},
      w.Enqueued { w' with
        conn := { w'.conn with recvAcc := acc, wsMsg := msg, wsMsgActive := active }
        delivered := deliv } :=
    ⟨h.framing, h.maxFrameLen, h.cap, h.closed, h.broken, h.drained, h.wantWritable, h.readPaused,
      h.rxResumeTimer, h.interest⟩
  unfold dispatchOnce
  split
  · unfold tlsDispatchOnce handUp
    split
    · exact kept_of_sendQ h hq
    · dsimp only
      split
      · exact kept_of_broken h
      · split
        · exact kept_of_sendQ h hq
        · exact kept_of_sendQ hrecv hq
  · unfold wsDispatchOnce
    split
    · exact kept_of_sendQ h hq
    · exact kept_of_broken h
    · next hdr _ =>
      split
      · exact kept_of_broken h
      · split
        · exact kept_of_broken h
        · split
          · exact kept_of_sendQ h hq
          · split
            · exact wsControl_kept h hq hdr
            · unfold wsData wsTakePayload handUp
              split
              · exact kept_of_broken h
              · split
                · exact kept_of_broken h
                · dsimp only
                  split
                  · exact kept_of_sendQ hrecv hq
                  · exact kept_of_sendQ hrecv hq

/-- Pausing and resuming: the flag and the timer together, and the mask after them. -/
theorem syncInterest_kept (w : ConnWorld) (timer paused : Bool) (h : paused = true → timer = true) :
    w.Kept { w with conn :=
      Conn.syncInterest { w.conn with rxResumeTimer := timer, readPaused := paused } } := by
  refine ⟨?_, ?_, ?_, ?_, ?_, Nat.le_refl _, ?_, ?_⟩
  all_goals dsimp only
  · unfold Conn.syncInterest
    split <;> rfl
  · unfold Conn.syncInterest
    split <;> rfl
  · rw [sendQ_syncInterest]
  · rw [sendQ_syncInterest]
  · unfold Conn.syncInterest
    split <;> exact id
  · intro _ hs
    refine ⟨?_, interest_syncInterest _, ?_⟩
    · rw [sendQ_syncInterest]
      unfold Conn.syncInterest
      split <;> exact hs.want
    · unfold Conn.syncInterest
      split <;> exact h
  · intro _ _ hlen hempty
    rw [sendQ_syncInterest] at hempty
    exact absurd hempty hlen

theorem pauseReadForRate_kept (w : ConnWorld) (timerOk : Bool) :
    w.Kept (w.pauseReadForRate timerOk) := by
  unfold pauseReadForRate
  split
  · exact kept_of_broken (.refl w)
  · exact w.syncInterest_kept true true id

/-- The resume timer's own part: the pause ends before the reading starts. -/
theorem rxResume_kept (w : ConnWorld) : w.Kept (rxResume .ignore w []) := by
  unfold rxResume
  dsimp only
  split
  · next hb =>
    refine ⟨rfl, rfl, rfl, rfl, id, Nat.le_refl _, ?_, ?_⟩
    · intro hlive
      rw [hlive] at hb
      cases hb
    · intro _ _ hlen hempty
      exact absurd hempty hlen
  · exact w.syncInterest_kept false false id

/-- What a step can do. -/
theorem step_kept (w : ConnWorld) (ev : ConnEv) : w.Kept (w.step ev) := by
  cases ev with
  | send frame kernel keys => exact send_kept (w.enqueued_facing kernel keys) rfl frame
  | drain kernel =>
    simp only [step]
    split
    · exact .refl w
    · exact (w.enqueued_facing kernel w.keys).kept_tryDrainSend
  | read allowed bs =>
    simp only [step]
    split
    · exact .refl w
    · exact kept_of_sendQ ⟨rfl, rfl, rfl, rfl, rfl, rfl, rfl, rfl, rfl, rfl⟩ rfl
  | dispatch kernel keys =>
    simp only [step]
    split
    · exact .refl w
    · exact dispatchOnce_kept (w.enqueued_facing kernel keys) rfl
  | pauseForRate timerOk =>
    simp only [step]
    split
    · exact .refl w
    · exact w.pauseReadForRate_kept timerOk
  | rxTimer =>
    simp only [step]
    split
    · exact w.rxResume_kept
    · exact .refl w
  | hangUp => exact kept_of_broken (.refl w)

/-! ## The callbacks are made of steps -/

/-- One connection comes from another by steps. -/
def Reaches : ConnWorld → ConnWorld → Prop := Relation.ReflTransGen fun w w' => ∃ ev, w' = w.step ev

theorem reaches_step (w : ConnWorld) (ev : ConnEv) : w.Reaches (w.step ev) := .single ⟨ev, rfl⟩

theorem reaches_tryDrainSend {w : ConnWorld} (hlive : w.conn.broken = false) :
    w.Reaches w.tryDrainSend := by
  have h := w.reaches_step (.drain w.kernel)
  rwa [step, if_neg (by rw [hlive]; decide)] at h

/-- A turn of the dispatch loop is the turn without its callee, and then perhaps the callee. -/
theorem dispatchOnce_callee (cb : OnEnvelope) (w : ConnWorld) :
    (dispatchOnce cb w).1 = (dispatchOnce .ignore w).1
      ∨ ∃ msg, (dispatchOnce cb w).1 = cb.call (dispatchOnce .ignore w).1 msg := by
  unfold dispatchOnce
  split
  · unfold tlsDispatchOnce handUp
    split
    · exact Or.inl rfl
    · dsimp only
      split
      · exact Or.inl rfl
      · split
        · exact Or.inl rfl
        · exact Or.inr ⟨_, rfl⟩
  · unfold wsDispatchOnce
    split
    · exact Or.inl rfl
    · exact Or.inl rfl
    · split
      · exact Or.inl rfl
      · split
        · exact Or.inl rfl
        · split
          · exact Or.inl rfl
          · split
            · exact Or.inl rfl
            · unfold wsData wsTakePayload handUp
              split
              · exact Or.inl rfl
              · split
                · exact Or.inl rfl
                · dsimp only
                  split
                  · exact Or.inl rfl
                  · exact Or.inr ⟨_, rfl⟩

theorem handUp_goesOn {cb : OnEnvelope} {w w' : ConnWorld} {frame : List UInt8}
    (h : handUp cb w frame = (w', true)) : w'.conn.broken = false := by
  obtain ⟨rfl, hgo⟩ := Prod.mk.inj h
  simpa using hgo

theorem wsControl_goesOn {w w' : ConnWorld} {hdr : WsFrameHeader} (hlive : w.conn.broken = false)
    (h : w.wsControl hdr = (w', true)) : w'.conn.broken = false := by
  unfold wsControl wsTakePayload at h
  dsimp only at h
  split at h
  · split at h
    · cases h
    · obtain ⟨rfl, hgo⟩ := Prod.mk.inj h
      simpa using hgo
  · split at h
    · obtain ⟨rfl, _⟩ := Prod.mk.inj h
      exact hlive
    · cases h

/-- The dispatch loop goes on only on a live connection. -/
theorem dispatchOnce_goesOn {cb : OnEnvelope} {w w' : ConnWorld} (hlive : w.conn.broken = false)
    (h : dispatchOnce cb w = (w', true)) : w'.conn.broken = false := by
  unfold dispatchOnce at h
  split at h
  · unfold tlsDispatchOnce at h
    split at h
    · cases h
    · dsimp only at h
      split at h
      · cases h
      · split at h
        · cases h
        · exact handUp_goesOn h
  · unfold wsDispatchOnce at h
    split at h
    · cases h
    · cases h
    · split at h
      · cases h
      · split at h
        · cases h
        · split at h
          · cases h
          · split at h
            · exact wsControl_goesOn hlive h
            · unfold wsData wsTakePayload at h
              split at h
              · cases h
              · split at h
                · cases h
                · dsimp only at h
                  split at h
                  · obtain ⟨rfl, _⟩ := Prod.mk.inj h
                    exact hlive
                  · exact handUp_goesOn h

section Callee

variable {cb : OnEnvelope} (hcb : ∀ w msg, Reaches w (cb.call w msg))
include hcb

theorem reaches_dispatchOnce {w : ConnWorld} (hlive : w.conn.broken = false) :
    w.Reaches (dispatchOnce cb w).1 := by
  have hturn := w.reaches_step (.dispatch w.kernel w.keys)
  rw [step, if_neg (by rw [hlive]; decide)] at hturn
  rcases dispatchOnce_callee cb w with heq | ⟨msg, heq⟩
  · rw [heq]
    exact hturn
  · rw [heq]
    exact hturn.trans (hcb _ msg)

theorem reaches_dispatchLoop (fuel : Nat) {w : ConnWorld} (hlive : w.conn.broken = false) :
    w.Reaches (dispatchLoop cb fuel w) := by
  induction fuel generalizing w with
  | zero => exact .refl
  | succ fuel ih =>
    have hturn := reaches_dispatchOnce hcb hlive
    rw [dispatchLoop]
    split
    · next heq =>
      rw [heq] at hturn
      exact hturn
    · next heq =>
      rw [heq] at hturn
      exact hturn.trans (ih (dispatchOnce_goesOn hlive heq))

theorem reaches_handleReadable (turns : List ReadTurn) {w : ConnWorld}
    (hlive : w.conn.broken = false) : w.Reaches (handleReadable cb turns w) := by
  have hhang := w.reaches_step .hangUp
  induction turns generalizing w with
  | nil => exact .refl
  | cons t ts ih =>
    rw [handleReadable]
    split
    · exact .refl
    · split
      · have hpause := w.reaches_step (.pauseForRate t.timerOk)
        rwa [step, if_neg (by rw [hlive]; decide)] at hpause
      · split
        · exact .refl
        · exact hhang
        · exact hhang
        · next bs _ =>
          split
          · exact hhang
          · have hread := w.reaches_step (.read t.allowed bs)
            rw [step, if_neg (by rw [hlive]; decide)] at hread
            have hrecv : w.Reaches (recvBytes cb w (bs.take (w.readWant t.allowed))) :=
              hread.trans (reaches_dispatchLoop hcb _ hlive)
            dsimp only
            split
            · exact hrecv
            · next hb => exact hrecv.trans (ih (Bool.eq_false_iff.mpr hb) (reaches_step _ _))

/-- `conn_reactor_cb` is made of steps, if the envelope callback's callee is. -/
theorem reactorCb_reaches (w : ConnWorld) (events : Interest) (turns : List ReadTurn) :
    w.Reaches (reactorCb cb w events turns) := by
  unfold reactorCb
  split
  · exact .refl
  · next hb =>
    have hlive := Bool.eq_false_iff.mpr hb
    have hread : w.Reaches (if events.readable then handleReadable cb turns w else w) := by
      split
      · exact reaches_handleReadable hcb turns hlive
      · exact .refl
    dsimp only
    generalize (if events.readable then handleReadable cb turns w else w) = w' at hread
    split
    · exact hread
    · next hb' =>
      split
      · exact hread.trans (reaches_tryDrainSend (Bool.eq_false_iff.mpr hb'))
      · exact hread

/-- So is `conn_rx_resume_cb`, fired from a pending timer. -/
theorem rxResume_reaches (w : ConnWorld) (turns : List ReadTurn) (htimer : w.conn.rxResumeTimer = true) :
    w.Reaches (rxResume cb w turns) := by
  have hfire := w.reaches_step .rxTimer
  rw [step, if_pos htimer] at hfire
  unfold rxResume at hfire ⊢
  dsimp only at hfire ⊢
  split
  · next hb =>
    rw [if_pos hb] at hfire
    exact hfire
  · next hb =>
    rw [if_neg hb, handleReadable] at hfire
    refine hfire.trans (reaches_handleReadable hcb turns ?_)
    unfold Conn.syncInterest
    split <;> exact Bool.eq_false_iff.mpr hb

end Callee

end ConnWorld

end Cloak
