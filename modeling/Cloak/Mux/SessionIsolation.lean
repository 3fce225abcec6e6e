import Cloak.Mux.SessionSilence
import Cloak.Mux.SessionSizes

set_option autoImplicit false

/-! # Ending one stream of a session

The relays ask for room before they write, but nobody asks before a stream is closed or a ping is
answered. `cloak_stream_send_closing` sends a frame with a payload of up to 256 bytes and padding, to
whichever connection the pool picks, and `conn_ws_extract_and_dispatch` sends a pong as long as the
ping. A queue without room for it breaks its connection, the connection breaks the pool, and the
session closes with every other stream in it.

The length of a closing frame follows from the stream and the draws, and the largest one from the
stream alone. `streams_isolated_iff` says which open sessions end any of their streams without harm:
those whose every connection has room for the largest closing frame of every stream still open for
writing, and for the pong of the ping it has read. -/

namespace Cloak

open Lib

namespace Stream

/-- The length of the closing frame the stream would send. -/
def closingLen (st : Stream) (env : ClosingEnv) : Nat :=
  Frame.usefulLen st.obfuscator ⟨st.id, st.nextWriteSeq, closingStream, st.closingPayload env⟩
    env.frame.draws

/-- The length of the largest closing frame the stream can send. -/
def maxClosingLen (st : Stream) : Nat :=
  frameHeaderLen + min st.maxPayloadPerFrame 256
    + (if st.nextWriteSeq < framePadFirstNFrames then
        frameMaxExtraLen - tagLenForMethod st.obfuscator.method
      else 0)
    + tagLenForMethod st.obfuscator.method

theorem closingLen_le (st : Stream) (env : ClosingEnv) : st.closingLen env ≤ st.maxClosingLen := by
  have htag := (Frame.tagLenForMethod_bounds st.obfuscator.method).1
  have hpad := Frame.randomPadLen_le (frameMaxExtraLen - tagLenForMethod st.obfuscator.method)
    env.frame.draws.pad (by simp only [frameMaxExtraLen, salsa20NonceLen] at *; omega)
  rw [closingLen, maxClosingLen, Frame.usefulLen, Frame.padLen, closingPayload, length_randomBytes]
  dsimp only
  split <;> omega

/-- The largest length byte and the largest padding draw make the largest closing frame. -/
theorem exists_closingLen (st : Stream) : ∃ env, st.closingLen env = st.maxClosingLen := by
  refine ⟨⟨255, fun _ => 0,
    ⟨⟨UInt32.ofNat (frameMaxExtraLen - tagLenForMethod st.obfuscator.method), fun _ => 0⟩, true⟩⟩, ?_⟩
  have hbyte : (255 : UInt8).toNat = 255 := rfl
  rw [closingLen, maxClosingLen, Frame.usefulLen, Frame.padLen, closingPayload, length_randomBytes,
    randomPadLen_max, hbyte]
  dsimp only
  omega

end Stream

/-- A longer frame does not have a shorter envelope. -/
theorem Framing.envelopeLen_mono (fr : Framing) {m n : Nat} (h : m ≤ n) :
    fr.envelopeLen m ≤ fr.envelopeLen n := by
  have hext : (if wsFrameMaxControlPayload < m then 2 else 0)
      ≤ if wsFrameMaxControlPayload < n then 2 else 0 := by
    split <;> split <;> omega
  cases fr <;> simp only [Framing.envelopeLen, connWsEnvelopeLen] <;> omega

namespace Session

/-! ## The closing frame of a stream -/

/-- What ending stream `h` seals: the closing frame, if the stream is still open for writing. -/
structure Seals (s : Session) (h : StreamHandle) (env : ClosingEnv) (c : SessionConfig) (s' : Session) :
    Prop where
  closed : s'.closed = s.closed
  sealed : (s'.sealed = s.sealed
      ∧ ∀ e, s.entry h = some e → e.retired = false → e.stream.writeClosed = true)
    ∨ ∃ e f, s.entry h = some e ∧ e.retired = false ∧ e.stream.writeClosed = false
      ∧ s'.sealed = s.sealed ++ [f] ∧ f.wire.length = e.stream.closingLen env
      ∧ f.wire.length ≤ c.maxOnWireSize

theorem Seals.congr {s s' s'' : Session} {h : StreamHandle} {env : ClosingEnv} {c : SessionConfig}
    (hs : s.Seals h env c s') (hclosed : s''.closed = s'.closed) (hsealed : s''.sealed = s'.sealed) :
    s.Seals h env c s'' :=
  ⟨hclosed.trans hs.closed, hsealed ▸ hs.sealed⟩

theorem seals_nothing {s : Session} {h : StreamHandle} (env : ClosingEnv) (c : SessionConfig)
    (hno : ∀ e, s.entry h = some e → e.retired = true) : s.Seals h env c s :=
  ⟨rfl, Or.inl ⟨rfl, fun e he hret => by rw [hno e he] at hret; cases hret⟩⟩

theorem sealed_retireStream (s : Session) (h : StreamHandle) :
    (s.retireStream h).sealed = s.sealed := by
  unfold retireStream
  split
  · rfl
  · split <;> rfl

theorem sendClosing_seals {evp : Evp} (hevp : evp.Lawful) {c : SessionConfig} (hc : c.Accepted)
    {s : Session} (hs : s.Sized c) {h : StreamHandle} {e : StreamEntry} (he : s.entry h = some e)
    (hret : e.retired = false) (env : ClosingEnv) : s.Seals h env c (s.sendClosing evp h e env).1 := by
  unfold sendClosing
  split
  · next hw =>
    refine ⟨rfl, Or.inl ⟨rfl, fun e' he' _ => ?_⟩⟩
    rw [he] at he'
    rw [← Option.some.inj he']
    exact hw
  · next hw =>
    obtain ⟨hpos, hle⟩ := e.stream.length_closingPayload env
    obtain ⟨st, f, hseal, hlen, hfit⟩ := sealFrame_sized hevp hc (hs.streams e (mem_heap_of_entry he))
      closingStream (e.stream.closingPayload env) env.frame.draws hpos hle
    unfold sealNext
    rw [hseal]
    exact ⟨rfl, Or.inr ⟨e, f, he, hret, Bool.eq_false_iff.mpr hw, rfl, hlen, hfit⟩⟩

theorem closeStream_seals {evp : Evp} (hevp : evp.Lawful) {c : SessionConfig} (hc : c.Accepted)
    {s : Session} (hs : s.Sized c) (hopen : s.closed = false) (h : StreamHandle) (env : ClosingEnv) :
    s.Seals h env c (s.closeStream evp h env) := by
  unfold closeStream
  cases he : s.entry h with
  | none => exact seals_nothing env c (by rw [he]; simp)
  | some e =>
    dsimp only
    cases hret : e.retired with
    | true =>
      rw [if_pos (Or.inr rfl)]
      exact seals_nothing env c fun e' he' => by rw [he] at he'; rw [← Option.some.inj he', hret]
    | false =>
      rw [if_neg (by rw [hopen]; simp)]
      have hseals := sendClosing_seals hevp hc hs he hret env
      split
      · next heq =>
        rw [heq] at hseals
        exact hseals.congr (closed_retireStream _ h) (sealed_retireStream _ h)
      · next heq =>
        rw [heq] at hseals
        exact hseals.congr rfl rfl

theorem releaseStream_seals {evp : Evp} (hevp : evp.Lawful) {c : SessionConfig} (hc : c.Accepted)
    {s : Session} (hs : s.Sized c) (h : StreamHandle) (env : ClosingEnv) :
    s.Seals h env c (s.releaseStream evp h env) := by
  unfold releaseStream
  cases he : s.entry h with
  | none => exact seals_nothing env c (by rw [he]; simp)
  | some e =>
    dsimp only
    cases hret : e.retired with
    | true =>
      have hnone : s.Seals h env c s :=
        seals_nothing env c fun e' he' => by rw [he] at he'; rw [← Option.some.inj he', hret]
      exact hnone.congr rfl rfl
    | false =>
      have hseals := sendClosing_seals hevp hc hs he hret env
      rw [if_neg Bool.false_ne_true]
      split
      · next heq =>
        rw [heq] at hseals
        exact hseals.congr (closed_retireStream _ h) (sealed_retireStream _ h)
      · next heq =>
        rw [heq] at hseals
        exact hseals.congr rfl rfl

end Session

namespace TimedSession

/-- A closed session stays closed. -/
theorem closed_step (evp : Evp) {t : TimedSession} (ev : TimedEv) (h : t.base.closed = true) :
    (t.step evp ev).base.closed = true := by
  obtain ⟨sev, hmoves⟩ := step_base_moves evp t ev
  refine hmoves.invariant (P := fun s => s.closed = true) (fun s s' hmove hs => ?_) h
  cases hmove with
  | untracked hu => exact hu.closed hs
  | closing => rfl
  | closingFailed => rfl
  | _ => exact hs

/-- The streams are freed all at once only when the session is closed. -/
theorem Good.swept_step {evp : Evp} {t : TimedSession} (ht : t.Good)
    (h : t.swept = true → t.base.closed = true) (ev : TimedEv)
    (hswept : (t.step evp ev).swept = true) : (t.step evp ev).base.closed = true := by
  cases ev with
  | call sev timerOk =>
    refine closed_step evp _ (h ?_)
    dsimp only [TimedSession.step] at hswept
    split at hswept
    · rwa [TimedSession.call, swept_applyAll] at hswept
    · exact hswept
  | destroy =>
    dsimp only [TimedSession.step] at hswept ⊢
    split
    · exact ht.destroy.closed
    · next hno =>
      rw [if_neg hno] at hswept
      exact h hswept
  | fire id env timerOk =>
    refine closed_step evp _ ?_
    dsimp only [TimedSession.step] at hswept
    split at hswept
    · split at hswept
      · exact h hswept
      · next k hfind =>
        cases k with
        | inactivity =>
          rw [TimedSession.fire, swept_applyAll] at hswept
          exact h hswept
        | deferred =>
          rw [TimedSession.fire, swept_applyAll] at hswept
          exact h hswept
        | sweep => exact (ht.sound.sweep_phase (Timers.mem_of_find hfind)).1
    · exact h hswept

end TimedSession

namespace PooledSession

/-- The session is open and its pool is whole. -/
def Running (p : PooledSession) : Prop := p.pool.broken = false ∧ p.timed.base.closed = false

instance (p : PooledSession) : Decidable p.Running := inferInstanceAs (Decidable (_ ∧ _))

/-- The events that end a stream or answer a ping, met by a kernel that reports no error. A stream is
    refused by releasing it. -/
inductive Ending (p : PooledSession) : PoolEv → Prop
  | closing {h : StreamHandle} {env : ClosingEnv} {retireOk : Bool} {d : PoolDraw} {timerOk : Bool} :
    .error ∉ d.kernel → Ending p (.owner (.call (.closeStream h env) retireOk) d timerOk)
  | releasing {h : StreamHandle} {env : ClosingEnv} {retireOk : Bool} {d : PoolDraw} {timerOk : Bool} :
    .error ∉ d.kernel → Ending p (.owner (.call (.releaseStream h env) retireOk) d timerOk)
  | answering {i : Nat} {w : ConnWorld} {n : Nat} {st : Assembly} {ctl : List UInt8}
    {kernel : List SendRes} {keys : List MaskKey} {allocs : StreamAllocs} {feed : FeedAllocs}
    {retireOk timerOk : Bool} : p.pool.conns[i]? = some w → w.turn = .take n st (.pong ctl) →
    .error ∉ kernel → Ending p (.conn i (.dispatch kernel keys) allocs feed retireOk timerOk)

/-- The connection that is picked has room for the closing frame of stream `h`, if it sends one. -/
def RoomToClose (p : PooledSession) (h : StreamHandle) (env : ClosingEnv) (d : PoolDraw) : Prop :=
  ∀ e, p.timed.base.entry h = some e → e.retired = false → e.stream.writeClosed = false →
    ∀ w, p.pool.conns[p.pool.pickConn d.pick]? = some w → w.RoomFor (e.stream.closingLen env)

/-- The send queue has room for the closing frame or the pong of the event. -/
def HasRoom (p : PooledSession) : PoolEv → Prop
  | .owner (.call (.closeStream h env) _) d _ => p.RoomToClose h env d
  | .owner (.call (.releaseStream h env) _) d _ =>
    p.timed.base.inCall h = false → p.RoomToClose h env d
  | .conn i (.dispatch _ _) _ _ _ _ =>
    ∀ w ctl, p.pool.conns[i]? = some w → w.reply? = some ctl → w.RoomFor ctl.length
  | _ => True

/-- No event that ends a stream or answers a ping ends the session. -/
def Isolated (evp : Evp) (p : PooledSession) : Prop :=
  ∀ e, p.Ending e → (p.step evp e).Running

/-- Every connection has room for the largest closing frame of every stream still open for writing,
    and for the pong of the ping it has read. -/
structure Roomy (p : PooledSession) : Prop where
  closing : ∀ h e, p.timed.base.entry h = some e → e.retired = false → e.stream.writeClosed = false →
    ∀ w ∈ p.pool.conns, w.conn.envelopeLen e.stream.maxClosingLen ≤ w.conn.sendQ.freeSpace
  pong : ∀ w ∈ p.pool.conns, ∀ n st ctl, w.turn = .take n st (.pong ctl) →
    w.conn.envelopeLen ctl.length ≤ w.conn.sendQ.freeSpace

/-! ## What every step keeps -/

/-- The streams and the connections have the sizes of the configuration. -/
structure Fitted (config : SessionConfig) (p : PooledSession) : Prop where
  wired : p.Wired
  sized : p.timed.base.Sized config
  frames : p.pool.maxFrameLen = config.maxOnWireSize
  swept : p.timed.swept = true → p.timed.base.closed = true

theorem Fitted.onSession {evp : Evp} (hevp : evp.Lawful) {config : SessionConfig}
    (hc : config.Accepted) {p : PooledSession} (h : p.Fitted config) (ev : TimedEv) :
    (p.onSession evp ev).Fitted config := by
  refine ⟨(h.wired.onSession evp ev).1, ?_, ?_, fun hswept => ?_⟩
  · obtain ⟨sev, hmoves⟩ := TimedSession.step_base_moves evp p.timed ev
    exact hmoves.invariant (Session.sized_move hevp hc) h.sized
  · dsimp only [PooledSession.onSession]
    split
    · exact h.frames
    · exact h.frames
  · rcases h.wired.session with hg | hg
    · exact hg.swept_step h.swept ev hswept
    · exact TimedSession.closed_step evp ev hg.closed

theorem Fitted.onConn {config : SessionConfig} {p : PooledSession} (h : p.Fitted config) (i : Nat)
    (ev : ConnEv) : (p.onConn i ev).Fitted config := by
  have htimed : (p.onConn i ev).timed = p.timed
      ∧ (p.onConn i ev).pool.maxFrameLen = p.pool.maxFrameLen := by
    unfold PooledSession.onConn
    split
    · exact ⟨rfl, rfl⟩
    · exact ⟨rfl, Switchboard.maxFrameLen_stepConn _ _ _⟩
  refine ⟨(h.wired.onConn i ev).1, ?_, htimed.2.trans h.frames, ?_⟩
  · rw [htimed.1]
    exact h.sized
  · rw [htimed.1]
    exact h.swept

theorem Fitted.step {evp : Evp} (hevp : evp.Lawful) {config : SessionConfig} (hc : config.Accepted)
    {p : PooledSession} (h : p.Fitted config) (e : PoolEv) : (p.step evp e).Fitted config := by
  refine step_invariant (P := fun p => p.Fitted config) (fun p ev h => h.onSession hevp hc ev)
    (fun p i ev h => h.onConn i ev)
    (fun p sends h => ⟨h.wired.congr rfl rfl rfl, h.sized, h.frames, h.swept⟩)
    (fun p framing pool _ hadd h => ⟨⟨h.wired.session, h.wired.pool.addConnFramed hadd, h.wired.heard⟩,
      h.sized, ?_, h.swept⟩) h e
  obtain ⟨_, c, _, rfl⟩ := Switchboard.addConnFramed_eq_some hadd
  exact h.frames

theorem fitted_init {config : SessionConfig} {timerOk : Bool} {p : PooledSession}
    (h : init config timerOk = some p) : config.Accepted ∧ p.Fitted config := by
  have hwired := (wired_init h).1
  unfold init at h
  split at h
  · next t sb ht hsb =>
    obtain rfl := Option.some.inj h
    unfold TimedSession.init at ht
    obtain ⟨s, hs, rfl⟩ : ∃ s, Session.init config = .ok s
        ∧ t = TimedSession.apply timerOk ⟨s, .empty, 0, 0, [], [], false⟩ .rearmInactivity := by
      cases hs : Session.init config with
      | error e => rw [hs] at ht; cases ht
      | ok s =>
        rw [hs] at ht
        exact ⟨s, rfl, (Except.ok.inj ht).symm⟩
    refine ⟨Session.accepted_of_init hs, hwired, Session.sized_init hs, ?_, fun hswept => by cases hswept⟩
    unfold Switchboard.init at hsb
    split at hsb
    · cases hsb
    · rw [← Option.some.inj hsb]
  · cases h

/-! ## One step of a running session -/

/-- A running session is alive. -/
theorem Running.good {p : PooledSession} (hr : p.Running) (h : p.Wired) : p.timed.Good := by
  rcases h.session with hg | hg
  · exact hg
  · have hopen := hr.2
    rw [hg.closed] at hopen
    cases hopen

/-- A call that does not close the session leaves it running. -/
theorem Running.call (evp : Evp) {p : PooledSession} (hr : p.Running) (h : p.Wired)
    {sev : SessionEv} (retireOk : Bool) (hcall : Session.isCall sev = true) :
    (p.onSession evp (.call sev retireOk)).timed.base = p.timed.base.step evp sev
      ∧ (p.onSession evp (.call sev retireOk)).pool.broken = false
      ∧ ((p.timed.base.step evp sev).closed = false → (p.onSession evp (.call sev retireOk)).Running) := by
  have hbase : (p.timed.step evp (.call sev retireOk)).base = p.timed.base.step evp sev := by
    rw [TimedSession.step, if_pos ⟨(hr.good h).sound.live, hcall⟩, TimedSession.call,
      TimedSession.base_applyAll]
  have hpool : (p.onSession evp (.call sev retireOk)).pool.broken = false := by
    dsimp only [onSession]
    split
    · exact hr.1
    · exact hr.1
  exact ⟨hbase, hpool, fun hopen => ⟨hpool, (congrArg Session.closed hbase).trans hopen⟩⟩

/-- The report of a broken connection closes the session, and without one nothing changes. -/
theorem running_reportBroken {evp : Evp} {p : PooledSession} (timerOk : Bool)
    (hopen : p.timed.base.closed = false) :
    (reportBroken evp false timerOk p).Running ↔ p.pool.broken = false := by
  unfold PooledSession.reportBroken
  cases hb : p.pool.broken with
  | false => exact ⟨fun _ => rfl, fun _ => ⟨hb, hopen⟩⟩
  | true =>
    refine ⟨fun hrun => ?_, fun hno => by cases hno⟩
    have hbroken : (p.onSession evp (.call .poolBroken timerOk)).pool.broken = true := by
      dsimp only [onSession]
      split
      · exact hb
      · exact hb
    rw [if_pos ⟨rfl, rfl⟩] at hrun
    have hwhole := hrun.1
    rw [hbroken] at hwhole
    cases hwhole

/-- Sending a frame within the limit spares a running session exactly if it fits. -/
theorem running_send {evp : Evp} {config : SessionConfig} {p : PooledSession} (h : p.Fitted config)
    (hr : p.Running) {frame : List UInt8} (hlen : frame.length ≤ config.maxOnWireSize) {d : PoolDraw}
    (hk : .error ∉ d.kernel) (timerOk : Bool) :
    (p.send evp frame d timerOk).Running
      ↔ ∀ w, p.pool.conns[p.pool.pickConn d.pick]? = some w → w.RoomFor frame.length := by
  unfold PooledSession.send
  by_cases hnil : p.pool.conns = []
  · rw [if_pos (Or.inr hnil), hnil]
    refine ⟨fun _ w hw => ?_, fun _ => hr⟩
    cases hw
  · rw [if_neg (not_or.mpr ⟨by rw [hr.1]; exact Bool.false_ne_true, hnil⟩), hr.1]
    refine (running_reportBroken timerOk ?_).trans ?_
    · unfold onConn
      split
      · exact hr.2
      · exact hr.2
    · have hlt : p.pool.pickConn d.pick < p.pool.conns.length :=
        Nat.mod_lt _ (List.length_pos_iff.mpr hnil)
      have hget := List.getElem?_eq_getElem hlt
      generalize p.pool.conns[p.pool.pickConn d.pick] = w at hget
      have hmem := List.mem_of_getElem? hget
      have hmax := h.wired.pool.maxFrameLen w hmem
      have hpool : (p.onConn (p.pool.pickConn d.pick) (.send frame d.kernel d.keys)).pool.broken
          = ((w.facing d.kernel d.keys).send frame).1.conn.broken := by
        simp only [onConn, hget, Switchboard.stepConn, hr.1, Bool.false_or]
        rfl
      dsimp only
      rw [hpool, hget]
      have hspec := (w.facing d.kernel d.keys).send_spec frame
        (show w.conn.maxFrameLen ≤ _ from hmax ▸ h.wired.pool.maxFrameLen_le)
        (h.wired.pool.opened w hmem)
      rcases hspec with ⟨hno, hb, _⟩ | ⟨hok, w', hq, heq⟩
      · rw [hb]
        refine ⟨fun hf => (Bool.false_ne_true hf.symm).elim, fun hall => absurd ⟨?_, hall w rfl⟩ hno⟩
        rw [show (w.facing d.kernel d.keys).conn.maxFrameLen = _ from hmax, h.frames]
        exact hlen
      · rw [heq, hq.live hk]
        exact ⟨fun _ w' hw' => Option.some.inj hw' ▸ hok.2, fun _ => hok.2.1⟩

/-- Ending a stream spares a running session exactly if its closing frame fits. -/
theorem running_seals {evp : Evp} {config : SessionConfig} {p : PooledSession} (h : p.Fitted config)
    (hr : p.Running) {sev : SessionEv} {retireOk : Bool} (hcall : Session.isCall sev = true)
    {hd : StreamHandle} {env : ClosingEnv}
    (hseals : p.timed.base.Seals hd env config (p.timed.base.step evp sev)) {d : PoolDraw}
    (hevp : evp.Lawful) (hc : config.Accepted) (hk : .error ∉ d.kernel) (timerOk : Bool) :
    (p.onSessionSend evp (.call sev retireOk) d timerOk).Running ↔ p.RoomToClose hd env d := by
  obtain ⟨hbase, hpool, hrunning⟩ := hr.call evp h.wired retireOk hcall
  have hstep : (p.timed.step evp (.call sev retireOk)).base = p.timed.base.step evp sev := hbase
  have hr' := hrunning (hseals.closed.trans hr.2)
  have hsealedBy : sealedBy p.timed.base (p.timed.step evp (.call sev retireOk)).base
      = (p.timed.base.step evp sev).sealed[p.timed.base.sealed.length]? := by
    rw [hstep]
    rfl
  unfold onSessionSend
  rw [hsealedBy]
  rcases hseals.sealed with ⟨hnone, hdone⟩ | ⟨e, f, he, hret, hw, hsome, hlen, hfit⟩
  · rw [hnone, List.getElem?_eq_none (Nat.le_refl _)]
    refine ⟨fun _ e he hret hw => ?_, fun _ => hr'⟩
    rw [hdone e he hret] at hw
    cases hw
  · rw [hsome, List.getElem?_concat_length]
    dsimp only
    have hfitted := h.onSession hevp hc (.call sev retireOk)
    have hsame : (p.onSession evp (.call sev retireOk)).pool = p.pool := by
      dsimp only [PooledSession.onSession]
      rw [if_neg]
      intro hswept
      have hclosed := hfitted.swept hswept
      rw [hr'.2] at hclosed
      cases hclosed
    rw [running_send hfitted hr' hfit hk timerOk, hsame, hlen]
    constructor
    · intro hall e' he'
      rw [he] at he'
      rw [← Option.some.inj he']
      exact fun _ _ => hall
    · exact fun hroom => hroom e he hret hw

/-- Answering a ping spares a running session exactly if the pong fits. -/
theorem running_pong {evp : Evp} {config : SessionConfig} {p : PooledSession} (h : p.Fitted config)
    (hr : p.Running) {i : Nat} {w : ConnWorld} {n : Nat} {st : Assembly} {ctl : List UInt8}
    (hget : p.pool.conns[i]? = some w) (hturn : w.turn = .take n st (.pong ctl))
    {kernel : List SendRes} (hk : .error ∉ kernel) (keys : List MaskKey) (allocs : StreamAllocs)
    (feed : FeedAllocs) (retireOk timerOk : Bool) :
    (p.step evp (.conn i (.dispatch kernel keys) allocs feed retireOk timerOk)).Running
      ↔ w.RoomFor ctl.length := by
  have hmem := List.mem_of_getElem? hget
  have hlive := h.wired.pool.live hr.1 w hmem
  have hstep : w.step (.dispatch kernel keys) = (ConnWorld.dispatchOnce .ignore (w.facing kernel keys)).1 :=
    if_neg (by rw [hlive]; exact Bool.false_ne_true)
  -- the answer goes to the peer, nothing is handed up
  have hsilent : handedUp w (.dispatch kernel keys) = none := by
    have hsame := ConnWorld.sameRecv_answer .ignore ((w.facing kernel keys).cutOff n st) (.pong ctl)
    have hdelivered : (w.step (.dispatch kernel keys)).delivered = w.delivered := by
      rw [hstep, ConnWorld.dispatchOnce_eq,
        show (w.facing kernel keys).turn = .take n st (.pong ctl) from hturn]
      exact hsame.delivered.trans (List.append_nil _)
    rw [handedUp, hdelivered]
    exact List.getElem?_eq_none (Nat.le_refl _)
  have hbroken : (p.onConn i (.dispatch kernel keys)).pool.broken
      = (ConnWorld.dispatchOnce .ignore (w.facing kernel keys)).1.conn.broken := by
    simp only [PooledSession.onConn, hget, Switchboard.stepConn, hr.1, Bool.false_or, hstep]
  have hreply : (w.facing kernel keys).reply? = some ctl := by
    unfold ConnWorld.reply?
    rw [show (w.facing kernel keys).turn = .take n st (.pong ctl) from hturn]
    rfl
  obtain ⟨_, hno, hyes⟩ := ConnWorld.dispatchOnce_answered hreply hlive (h.wired.pool.opened w hmem)
  dsimp only [PooledSession.step]
  rw [if_pos (show ConnEv.isOwn (.dispatch kernel keys) = true from rfl), hget]
  dsimp only
  rw [hsilent, hr.1]
  refine (running_reportBroken timerOk ?_).trans ?_
  · unfold PooledSession.onConn
    split
    · exact hr.2
    · exact hr.2
  · rw [hbroken]
    constructor
    · intro hlive'
      by_contra hfull
      rw [hno hfull] at hlive'
      cases hlive'
    · exact fun hroom => hyes hroom hk ⟨n, st, hturn⟩

/-- An event that ends a stream or answers a ping spares a running session exactly if it has the room
    it needs. -/
theorem Fitted.running_step {evp : Evp} (hevp : evp.Lawful) {config : SessionConfig}
    (hc : config.Accepted) {p : PooledSession} (h : p.Fitted config) (hr : p.Running) {e : PoolEv}
    (he : p.Ending e) : (p.step evp e).Running ↔ p.HasRoom e := by
  have hlive := (hr.good h.wired).sound.live
  have hnot : ¬ p.timed.base.destroyed = true := Bool.eq_false_iff.mp hlive
  cases he with
  | @closing hd env retireOk d timerOk hk =>
    have hseals : p.timed.base.Seals hd env config (p.timed.base.step evp (.closeStream hd env)) := by
      rw [Session.step, if_neg hnot]
      exact Session.closeStream_seals hevp hc h.sized hr.2 hd env
    exact running_seals h hr rfl hseals hevp hc hk timerOk
  | @releasing hd env retireOk d timerOk hk =>
    dsimp only [PooledSession.step, HasRoom]
    rw [if_pos (show TimedEv.isOwners (.call (.releaseStream hd env) retireOk) = true from rfl)]
    cases hin : p.timed.base.inCall hd with
    | true =>
      -- the stream is in use by a call, and the event is none
      have hsame : p.timed.base.step evp (.releaseStream hd env) = p.timed.base := by
        rw [Session.step, if_neg hnot]
        exact if_pos hin
      obtain ⟨hcall, _, hrunning⟩ := hr.call evp h.wired retireOk
        (show Session.isCall (.releaseStream hd env) = true from rfl)
      have hstep : (p.timed.step evp (.call (.releaseStream hd env) retireOk)).base = p.timed.base :=
        hcall.trans hsame
      unfold onSessionSend sealedBy
      rw [hstep, List.getElem?_eq_none (Nat.le_refl _)]
      refine ⟨fun _ hno => ?_, fun _ => hrunning (by rw [hsame]; exact hr.2)⟩
      cases hno
    | false =>
      have hseals : p.timed.base.Seals hd env config (p.timed.base.step evp (.releaseStream hd env)) := by
        simp only [Session.step, if_neg hnot, hin, if_neg Bool.false_ne_true]
        exact Session.releaseStream_seals hevp hc h.sized hd env
      exact (running_seals h hr rfl hseals hevp hc hk timerOk).trans
        ⟨fun hroom _ => hroom, fun himp => himp rfl⟩
  | @answering i w n st ctl kernel keys allocs feed retireOk timerOk hget hturn hk =>
    rw [running_pong h hr hget hturn hk]
    have hreply : w.reply? = some ctl := by
      unfold ConnWorld.reply?
      rw [hturn]
      rfl
    dsimp only [HasRoom]
    constructor
    · intro hroom w' ctl' hget' hreply'
      rw [hget] at hget'
      obtain rfl := Option.some.inj hget'
      rw [hreply] at hreply'
      rw [← Option.some.inj hreply']
      exact hroom
    · exact fun hall => hall w ctl hget hreply

/-! ## Runs -/

theorem fitted_run {evp : Evp} (hevp : evp.Lawful) {config : SessionConfig} (hc : config.Accepted)
    (es : List PoolEv) {p : PooledSession} (h : p.Fitted config) :
    (run (step evp) p es).Fitted config := by
  induction es generalizing p with
  | nil => exact h
  | cons e es ih => exact ih (h.step hevp hc e)

/-- Room for the largest closing frame is room for each, on whichever connection. -/
theorem Roomy.roomToClose {config : SessionConfig} {p : PooledSession} (hroomy : p.Roomy)
    (h : p.Fitted config) (hr : p.Running) (hd : StreamHandle) (env : ClosingEnv) (d : PoolDraw) :
    p.RoomToClose hd env d := by
  intro e he hret hw w hget
  have hmem := List.mem_of_getElem? hget
  refine ⟨h.wired.pool.live hr.1 w hmem, ?_⟩
  calc w.conn.envelopeLen (e.stream.closingLen env)
      ≤ w.conn.envelopeLen e.stream.maxClosingLen :=
        Framing.envelopeLen_mono _ (e.stream.closingLen_le env)
    _ ≤ w.conn.sendQ.freeSpace := hroomy.closing hd e he hret hw w hmem

theorem Roomy.hasRoom {config : SessionConfig} {p : PooledSession} (hroomy : p.Roomy)
    (h : p.Fitted config) (hr : p.Running) {e : PoolEv} (he : p.Ending e) : p.HasRoom e := by
  cases he with
  | closing => exact hroomy.roomToClose h hr _ _ _
  | releasing => exact fun _ => hroomy.roomToClose h hr _ _ _
  | @answering i w n st ctl kernel keys allocs feed retireOk timerOk hget hturn hk =>
    intro w' ctl' hget' hreply
    rw [hget] at hget'
    obtain rfl := Option.some.inj hget'
    have hmem := List.mem_of_getElem? hget
    rw [ConnWorld.reply?, hturn] at hreply
    obtain rfl : ctl = ctl' := Option.some.inj hreply
    exact ⟨h.wired.pool.live hr.1 w hmem, hroomy.pong w hmem n st ctl hturn⟩

/-- A session whose events all have their room is roomy: the pool may pick any connection, and the
    largest closing frame may be drawn. -/
theorem roomy_of_hasRoom {p : PooledSession} (hall : ∀ e, p.Ending e → p.HasRoom e) : p.Roomy := by
  refine ⟨fun hd e he hret hw w hmem => ?_, fun w hmem n st ctl hturn => ?_⟩
  · obtain ⟨i, hlt, hget⟩ := List.getElem_of_mem hmem
    obtain ⟨env, henv⟩ := e.stream.exists_closingLen
    have hpick : p.pool.conns[p.pool.pickConn i]? = some w := by
      rw [Switchboard.pickConn, Nat.mod_eq_of_lt hlt, List.getElem?_eq_getElem hlt, hget]
    have hend : p.Ending (.owner (.call (.closeStream hd env) true) ⟨i, [], []⟩ true) :=
      .closing List.not_mem_nil
    have hroom : p.RoomToClose hd env ⟨i, [], []⟩ := hall _ hend
    rw [← henv]
    exact (hroom e he hret hw w hpick).2
  · obtain ⟨i, hlt, hget⟩ := List.getElem_of_mem hmem
    have hget' : p.pool.conns[i]? = some w := by rw [List.getElem?_eq_getElem hlt, hget]
    have hreply : w.reply? = some ctl := by
      rw [ConnWorld.reply?, hturn]
      rfl
    have hend : p.Ending (.conn i (.dispatch [] []) ⟨true, true, true⟩ ⟨true, true⟩ true true) :=
      .answering hget' hturn List.not_mem_nil
    exact (hall _ hend w ctl hget' hreply).2

/-- An open session that a run comes to ends its streams and answers its pings without harm exactly
    if it is roomy. -/
theorem streams_isolated_iff (evp : Evp) (hevp : evp.Lawful) (config : SessionConfig) (timerOk : Bool)
    (p₀ : PooledSession) (h0 : init config timerOk = some p₀) (es : List PoolEv)
    (hr : (run (step evp) p₀ es).Running) :
    (run (step evp) p₀ es).Isolated evp ↔ (run (step evp) p₀ es).Roomy := by
  obtain ⟨hc, hinit⟩ := fitted_init h0
  have h := fitted_run hevp hc es hinit
  constructor
  · intro hiso
    exact roomy_of_hasRoom fun e he => (h.running_step hevp hc hr he).mp (hiso e he)
  · intro hroomy e he
    exact (h.running_step hevp hc hr he).mpr (hroomy.hasRoom h hr he)

/-- A session with one connection and two streams. -/
def twoStreams : List PoolEv :=
  [.addConn .tlsRecord,
    .owner (.call (.openStream ⟨true, true, true⟩) true) ⟨0, [], []⟩ true,
    .owner (.call (.openStream ⟨true, true, true⟩) true) ⟨0, [], []⟩ true]

/-- One byte is written to the first stream, and the socket asks to wait. -/
def writeFirst : List PoolEv :=
  [.owner (.call (.write 0 [7] ⟨0, fun _ => 0⟩) true) ⟨0, [.again], []⟩ true,
    .returned ⟨0, fun _ => 0⟩ ⟨0, [], []⟩ true true]

/-- The second stream is closed with the largest padding. -/
def closeSecond : PoolEv :=
  .owner (.call (.closeStream 1 ⟨0, fun _ => 0, ⟨⟨247, fun _ => 0⟩, true⟩⟩) true) ⟨0, [], []⟩ true

/-- Two open streams and one connection with an empty queue: either stream can be ended. -/
theorem streams_isolated_empty : ∃ p₀, init Session.smallConfig true = some p₀
    ∧ (run (step Evp.plain) p₀ twoStreams).Isolated Evp.plain := by
  obtain ⟨p₀, h0⟩ : ∃ p₀, init Session.smallConfig true = some p₀ := ⟨_, rfl⟩
  have hinit : p₀ = (init Session.smallConfig true).get rfl := by
    simp only [h0, Option.get_some]
  refine ⟨p₀, h0, (streams_isolated_iff Evp.plain Evp.plain_lawful Session.smallConfig true p₀ h0
    twoStreams ?_).mpr ⟨fun h e he _ _ => ?_, fun w hw n st ctl hturn => ?_⟩⟩
  · subst hinit
    decide +kernel
  · have hroom : ∀ x ∈ (run (step Evp.plain) p₀ twoStreams).timed.base.heap,
        ∀ e ∈ x, ∀ w ∈ (run (step Evp.plain) p₀ twoStreams).pool.conns,
          w.conn.envelopeLen e.stream.maxClosingLen ≤ w.conn.sendQ.freeSpace := by
      subst hinit
      decide +kernel
    exact hroom _ (Session.mem_heap_of_entry he) e rfl
  · have hno : ∀ w ∈ (run (step Evp.plain) p₀ twoStreams).pool.conns, w.reply? = none := by
      subst hinit
      decide +kernel
    have hreply := hno w hw
    rw [ConnWorld.reply?, hturn] at hreply
    cases hreply

/-- One byte within the read budget of a relay is queued. Closing the other stream then breaks the
    connection, and with it the session. -/
theorem closing_breaks_session : ∃ p₀ st, init Session.smallConfig true = some p₀
    ∧ Session.initStream Session.smallConfig 1 = .ok st
    ∧ (streamRelayFdReadBudget (run (step Evp.plain) p₀ twoStreams).pool.minConnFree st ⟨none, 0, 0⟩).1
      = 1
    ∧ (run (step Evp.plain) p₀ (twoStreams ++ writeFirst)).Running
    ∧ (run (step Evp.plain) p₀ (twoStreams ++ writeFirst)).timed.base.activeStreamCount = 2
    ∧ (run (step Evp.plain) p₀ (twoStreams ++ writeFirst)).Ending closeSecond
    ∧ (run (step Evp.plain) p₀ (twoStreams ++ writeFirst ++ [closeSecond])).timed.base.closed = true := by
  refine ⟨_, _, rfl, rfl, ?_, ?_, ?_, .closing List.not_mem_nil, ?_⟩ <;> decide +kernel

end PooledSession

end Cloak
