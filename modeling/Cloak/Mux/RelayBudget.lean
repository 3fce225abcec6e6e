import Cloak.Mux.Relay
import Cloak.Mux.SessionIds
import Cloak.Mux.SessionSizes

set_option autoImplicit false

/-! # The read budget and the send queues

A relay that may read `b` bytes writes them to its stream, the stream cuts them into frames, and the
pool sends each frame over a connection of its choice. A connection whose queue has no room for the
envelope breaks, and the session with it. So the budget counts whole frames at a fixed cost each,
against the least free space in the pool.

The cost assumes the five bytes of a TLS record header. That covers the WebSocket envelope of a
server, but a client masks its frames and its largest envelope is three bytes longer: with such a
connection in the pool the budget is too large exactly when the free space is within those three
bytes of a whole number of frames, which every capacity that lets a relay start can come to
(`exists_filled`). Without one, no write within the budget overruns (`sendAll_noOverrun`). -/

namespace Cloak

open Lib

/-- The check on which `cloak_conn_send` breaks a connection for want of room. -/
def Conn.Overruns (c : Conn) (frame : List UInt8) : Prop :=
  c.broken = false ∧ frame.length ≤ c.maxFrameLen
    ∧ c.sendQ.freeSpace < c.envelopeLen frame.length

instance (c : Conn) (frame : List UInt8) : Decidable (c.Overruns frame) :=
  inferInstanceAs (Decidable (_ ∧ _ ∧ _))

/-- What one frame meets in the pool: the draw of the pick, the kernel, the mask key. -/
structure PoolDraw where
  pick : Nat
  kernel : List SendRes
  keys : List MaskKey

/-- A frame handed to a connection, and the connection as it was then. -/
structure Handed where
  conn : Conn
  frame : List UInt8

namespace Switchboard

/-- The connection a frame is handed to, if any. -/
def handed (sb : Switchboard) (frame : List UInt8) (d : PoolDraw) : List Handed :=
  if sb.broken then []
  else
    match sb.conns[sb.pickConn d.pick]? with
    | none => []
    | some w => [⟨w.conn, frame⟩]

/-- The frames of one write, sent in order. -/
def sendAll (draws : Nat → PoolDraw) :
    (sb : Switchboard) → (i : Nat) → List (List UInt8) → Switchboard × List Handed
  | sb, _, [] => (sb, [])
  | sb, i, f :: fs =>
    ((sendAll draws (sb.send f (draws i).pick (draws i).kernel (draws i).keys).1 (i + 1) fs).1,
      sb.handed f (draws i)
        ++ (sendAll draws (sb.send f (draws i).pick (draws i).kernel (draws i).keys).1 (i + 1) fs).2)

end Switchboard

/-- The pools an open session of configuration `c` can come to: connections are added, streams of
    the session send frames, and the connections take steps of their own. -/
inductive PoolReachable (evp : Evp) (c : SessionConfig) : Switchboard → Prop
  | init {sb : Switchboard} (h : Switchboard.init c.maxOnWireSize c.connSendQueueCap = some sb) :
      PoolReachable evp c sb
  | addConn {sb sb' : Switchboard} {fr : Framing} (hr : PoolReachable evp c sb)
      (h : sb.addConnFramed fr = some sb') : PoolReachable evp c sb'
  | sent {sb : Switchboard} {st st' : Stream} {closing : UInt8} {payload : List UInt8}
      {draws : FrameDraws} {f : SealedFrame} (hr : PoolReachable evp c sb) (hst : st.SizedFor c)
      (hf : st.sealFrame evp closing payload draws = (st', some f)) (d : PoolDraw) :
      PoolReachable evp c (sb.send f.wire d.pick d.kernel d.keys).1
  | step {sb : Switchboard} (hr : PoolReachable evp c sb) (i : Nat) (ev : ConnEv)
      (hev : ∀ frame kernel keys, ev ≠ .send frame kernel keys) :
      PoolReachable evp c (sb.stepConn i ev)

/-- No write of `bs` to `st` makes a connection exceed its queue, whatever padding is drawn and
    whichever connection is picked for each frame. -/
def NoOverrun (evp : Evp) (sb : Switchboard) (st : Stream) (bs : List UInt8) : Prop :=
  ∀ (env : Nat → FrameEnv) (draws : Nat → PoolDraw),
    ∀ h ∈ (sb.sendAll draws 0 ((st.write evp bs env).2.1.map (·.wire))).2, ¬ h.conn.Overruns h.frame

/-- The promise of the budgets, for the pools with connections of the given framings. -/
structure RelaySafe (evp : Evp) (c : SessionConfig) (framings : List Framing) : Prop where
  stream : ∀ sb, PoolReachable evp c sb → sb.broken = false →
    sb.conns.map (·.conn.framing) = framings → ∀ st : Stream, st.SizedFor c →
    ∀ (v : ValveReading) (bs : List UInt8),
      bs.length ≤ (streamRelayFdReadBudget sb.minConnFree st v).1 → NoOverrun evp sb st bs
  dgram : ∀ sb, PoolReachable evp c sb → sb.broken = false →
    sb.conns.map (·.conn.framing) = framings → ∀ st : Stream, st.SizedFor c →
    ∀ (v : ValveReading) (bs : List UInt8),
      (dgramRelayCanAcceptFrame sb.minConnFree st v).1 = true →
      bs.length ≤ st.maxPayloadPerFrame → NoOverrun evp sb st bs

/-! ## The frames of a write -/

theorem Stream.SizedFor.sealFrame {evp : Evp} {c : SessionConfig} {st st' : Stream} {closing : UInt8}
    {payload : List UInt8} {draws : FrameDraws} {f : SealedFrame} (hst : st.SizedFor c)
    (h : st.sealFrame evp closing payload draws = (st', some f)) : st'.SizedFor c := by
  obtain ⟨rfl, _⟩ := Stream.sealFrame_some h
  exact ⟨hst.obfuscator, hst.maxPayload, hst.recvCap⟩

/-- A write of at most `k` payloads makes at most `k` frames, each within the wire size. -/
theorem writeLoop_frames {evp : Evp} (hevp : evp.Lawful) {c : SessionConfig} (hc : c.Accepted)
    (env : Nat → FrameEnv) (fuel : Nat) (st : Stream) (hst : st.SizedFor c) (i k : Nat)
    (rest : List UInt8) (hk : rest.length ≤ k * st.maxPayloadPerFrame) :
    (st.writeLoop evp env fuel i rest).2.1.length ≤ k
      ∧ ∀ f ∈ (st.writeLoop evp env fuel i rest).2.1, f.wire.length ≤ c.maxOnWireSize := by
  induction fuel generalizing st i k rest with
  | zero => exact ⟨Nat.zero_le _, fun f hf => absurd hf List.not_mem_nil⟩
  | succ fuel ih =>
    rw [Stream.writeLoop]
    split
    · exact ⟨Nat.zero_le _, fun f hf => absurd hf List.not_mem_nil⟩
    · next hne =>
      have hpay := st.maxPayload_pos
      -- there is at least a byte left, so at least a payload was allowed
      obtain ⟨k, rfl⟩ : ∃ k', k = k' + 1 := by
        cases k with
        | zero => omega
        | succ k => exact ⟨k, rfl⟩
      obtain ⟨st₁, f, hseal, _, hwire⟩ := Session.sealFrame_sized hevp hc hst closingNothing
        (rest.take st.maxPayloadPerFrame) (env i).draws
        (by rw [List.length_take]; omega) (List.length_take_le _ _)
      rw [hseal]
      have hst₁ := hst.sealFrame hseal
      have hrest : (rest.drop st.maxPayloadPerFrame).length ≤ k * st₁.maxPayloadPerFrame := by
        rw [List.length_drop, hst₁.maxPayload, ← hst.maxPayload]
        rw [Nat.add_mul, Nat.one_mul] at hk
        omega
      obtain ⟨hlen, hall⟩ := ih st₁ hst₁ (i + 1) k (rest.drop st.maxPayloadPerFrame) hrest
      dsimp only
      split
      · refine ⟨by rw [List.length_cons]; omega, fun g hg => ?_⟩
        rcases List.mem_cons.mp hg with rfl | hmem
        · exact hwire
        · exact hall g hmem
      · refine ⟨by rw [List.length_singleton]; omega, fun g hg => ?_⟩
        rw [List.mem_singleton.mp hg]
        exact hwire

theorem write_frames {evp : Evp} (hevp : evp.Lawful) {c : SessionConfig} (hc : c.Accepted)
    (env : Nat → FrameEnv) {st : Stream} (hst : st.SizedFor c) {k : Nat} {bs : List UInt8}
    (hk : bs.length ≤ k * st.maxPayloadPerFrame) :
    (st.write evp bs env).2.1.length ≤ k
      ∧ ∀ f ∈ (st.write evp bs env).2.1, f.wire.length ≤ c.maxOnWireSize := by
  unfold Stream.write
  split
  · exact ⟨Nat.zero_le _, fun f hf => absurd hf List.not_mem_nil⟩
  · split
    · exact ⟨Nat.zero_le _, fun f hf => absurd hf List.not_mem_nil⟩
    · exact writeLoop_frames hevp hc env _ st hst 0 k bs hk

/-! ## Room for the frames -/

/-- Only a client's envelope can be longer than the record the cost assumes. -/
theorem Framing.envelopeLen_le (fr : Framing) (hfr : fr ≠ .wsClient) (n : Nat) :
    fr.envelopeLen n ≤ connRecordHeaderLen + n := by
  cases fr with
  | tlsRecord => exact Nat.le_refl _
  | wsClient => exact absurd rfl hfr
  | wsServer =>
    simp only [Framing.envelopeLen, connWsEnvelopeLen, connRecordHeaderLen]
    split <;> simp

/-- A client's envelope. -/
theorem Framing.envelopeLen_wsClient (n : Nat) :
    Framing.wsClient.envelopeLen n = n + if wsFrameMaxControlPayload < n then 8 else 6 := by
  simp only [Framing.envelopeLen, connWsEnvelopeLen, if_true]
  split <;> omega

/-- A send takes at most the envelope from the free space. -/
theorem ConnWorld.freeSpace_send (w : ConnWorld) (frame : List UInt8)
    (hmax : w.conn.maxFrameLen ≤ connMaxFrameLen) (hopen : w.conn.sendQ.closed = false)
    (hlive : w.conn.broken = false) :
    w.conn.sendQ.freeSpace
      ≤ (w.send frame).1.conn.sendQ.freeSpace + w.conn.envelopeLen frame.length := by
  obtain ⟨hsend, hcases⟩ := w.send_cases frame hmax hopen hlive
  have hcap := (send_kept (.refl w) rfl frame).cap
  have hle := w.conn.sendQ.len_le_cap
  have hsock := hsend.socket.length_le
  unfold ByteQueue.freeSpace
  rw [hcap]
  rcases hcases with ⟨_, hout⟩ | ⟨hlen, _, hout⟩
  · have hlen' := congrArg List.length hout
    simp only [outBytes, List.length_append, ByteQueue.length_contents] at hlen'
    omega
  · have hlen' := congrArg List.length hout
    rw [List.length_append, Framing.length_envelope _ _ _ (by omega)] at hlen'
    simp only [outBytes, List.length_append, ByteQueue.length_contents] at hlen'
    rw [Conn.envelopeLen]
    omega

namespace Switchboard

theorem handed_cases (sb : Switchboard) (frame : List UInt8) (d : PoolDraw) :
    (sb.handed frame d = [] ∧ (sb.send frame d.pick d.kernel d.keys).1 = sb)
      ∨ ∃ w, sb.broken = false ∧ sb.conns[sb.pickConn d.pick]? = some w
        ∧ sb.handed frame d = [⟨w.conn, frame⟩]
        ∧ (sb.send frame d.pick d.kernel d.keys).1
          = sb.stepConn (sb.pickConn d.pick) (.send frame d.kernel d.keys) := by
  unfold handed send
  split
  · exact Or.inl ⟨rfl, rfl⟩
  · next hb =>
    cases hw : sb.conns[sb.pickConn d.pick]? with
    | none => exact Or.inl ⟨rfl, rfl⟩
    | some w => exact Or.inr ⟨w, Bool.eq_false_iff.mpr hb, rfl, rfl, rfl⟩

/-- With room for every frame at the record's cost on every connection, and none of them a client's,
    no frame overruns. -/
theorem sendAll_noOverrun (draws : Nat → PoolDraw) (fs : List (List UInt8)) (sb : Switchboard)
    (i : Nat) (hs : sb.Sound) (hfr : ∀ w ∈ sb.conns, w.conn.framing ≠ .wsClient)
    (hlen : ∀ f ∈ fs, f.length ≤ sb.maxFrameLen)
    (hroom : ∀ w ∈ sb.conns,
      fs.length * (connRecordHeaderLen + sb.maxFrameLen) ≤ w.conn.sendQ.freeSpace) :
    ∀ h ∈ (sendAll draws sb i fs).2, ¬ h.conn.Overruns h.frame := by
  induction fs generalizing sb i with
  | nil => exact fun h hh => absurd hh List.not_mem_nil
  | cons f fs ih =>
    have hf := hlen f List.mem_cons_self
    have hfs : ∀ g ∈ fs, g.length ≤ sb.maxFrameLen := fun g hg => hlen g (List.mem_cons_of_mem _ hg)
    simp only [List.length_cons, Nat.add_mul, Nat.one_mul] at hroom
    rw [sendAll]
    rcases sb.handed_cases f (draws i) with ⟨hnone, hsame⟩ | ⟨w, hb, hw, hone, hstep⟩
    · rw [hnone, hsame, List.nil_append]
      refine ih sb (i + 1) hs hfr hfs fun w hw => ?_
      have := hroom w hw
      omega
    · have hmem := List.mem_of_getElem? hw
      have henv : w.conn.envelopeLen f.length ≤ connRecordHeaderLen + sb.maxFrameLen :=
        Nat.le_trans (Framing.envelopeLen_le _ (hfr w hmem) _) (by omega)
      have hk := w.step_kept (.send f (draws i).kernel (draws i).keys)
      rw [hone, hstep]
      intro h hh
      rcases List.mem_append.mp hh with hnow | hlater
      · rw [List.mem_singleton.mp hnow]
        rintro ⟨_, _, hover⟩
        have := hroom w hmem
        dsimp only at hover
        omega
      · -- the picked connection has lost at most one cost, the others nothing
        have hwfree := (w.facing (draws i).kernel (draws i).keys).freeSpace_send f
          (Nat.le_trans (Nat.le_of_eq (hs.maxFrameLen w hmem)) hs.maxFrameLen_le)
          (hs.opened w hmem) (hs.live hb w hmem)
        have hconns : (sb.stepConn (sb.pickConn (draws i).pick)
            (.send f (draws i).kernel (draws i).keys)).conns
            = sb.conns.set (sb.pickConn (draws i).pick)
              (w.step (.send f (draws i).kernel (draws i).keys)) := by
          simp only [stepConn, hw]
        refine ih _ (i + 1) (hs.stepConn _ _) ?_ (by rw [maxFrameLen_stepConn]; exact hfs) ?_ h hlater
        · rw [hconns]
          intro v hv
          rcases List.mem_or_eq_of_mem_set hv with hin | rfl
          · exact hfr v hin
          · rw [hk.framing]
            exact hfr w hmem
        · rw [hconns, maxFrameLen_stepConn]
          intro v hv
          rcases List.mem_or_eq_of_mem_set hv with hin | rfl
          · have := hroom v hin
            omega
          · have := hroom w hmem
            have hwfree' : w.conn.sendQ.freeSpace
                ≤ (w.step (.send f (draws i).kernel (draws i).keys)).conn.sendQ.freeSpace
                  + w.conn.envelopeLen f.length := hwfree
            omega

end Switchboard

theorem PoolReachable.sound {evp : Evp} {c : SessionConfig} {sb : Switchboard}
    (h : PoolReachable evp c sb) :
    sb.Sound ∧ sb.maxFrameLen = c.maxOnWireSize ∧ sb.connSendQueueCap = c.connSendQueueCap := by
  induction h with
  | init h =>
    refine ⟨Switchboard.sound_init h, ?_⟩
    unfold Switchboard.init at h
    split at h
    · cases h
    · obtain rfl := Option.some.inj h
      exact ⟨rfl, rfl⟩
  | addConn _ h ih =>
    obtain ⟨hs, hmax, hcap⟩ := ih
    refine ⟨hs.addConnFramed h, ?_⟩
    obtain ⟨_, _, _, rfl⟩ := Switchboard.addConnFramed_eq_some h
    exact ⟨hmax, hcap⟩
  | sent _ _ _ d ih =>
    obtain ⟨hs, hmax, hcap⟩ := ih
    rcases Switchboard.send_cases _ _ d.pick d.kernel d.keys with heq | heq
    · rw [heq]
      exact ⟨hs, hmax, hcap⟩
    · rw [heq]
      exact ⟨hs.stepConn _ _, by rw [Switchboard.maxFrameLen_stepConn, hmax],
        by rw [Switchboard.connSendQueueCap_stepConn, hcap]⟩
  | step _ i ev _ ih =>
    obtain ⟨hs, hmax, hcap⟩ := ih
    exact ⟨hs.stepConn _ _, by rw [Switchboard.maxFrameLen_stepConn, hmax],
      by rw [Switchboard.connSendQueueCap_stepConn, hcap]⟩

/-- The cost of a frame, for a stream of the session. -/
theorem streamRelayFrameCost_eq {c : SessionConfig} (hc : c.Accepted) {st : Stream}
    (hst : st.SizedFor c) : streamRelayFrameCost st = connRecordHeaderLen + c.maxOnWireSize := by
  have hsize : frameHeaderLen + frameMaxExtraLen < c.maxOnWireSize :=
    Nat.not_le.mp fun hbad => hc.2 (Or.inl hbad)
  rw [streamRelayFrameCost, hst.maxPayload]
  omega

/-- Room for `k` frames at their cost makes every write of `k` payloads safe. -/
theorem noOverrun_of_room {evp : Evp} (hevp : evp.Lawful) {c : SessionConfig} (hc : c.Accepted)
    {sb : Switchboard} (hr : PoolReachable evp c sb) {st : Stream} (hst : st.SizedFor c) {k : Nat}
    {bs : List UInt8} (hbs : bs.length ≤ k * st.maxPayloadPerFrame)
    (hfr : k = 0 ∨ ∀ w ∈ sb.conns, w.conn.framing ≠ .wsClient)
    (hroom : k * streamRelayFrameCost st ≤ sb.minConnFree) : NoOverrun evp sb st bs := by
  obtain ⟨hs, hmax, _⟩ := hr.sound
  intro env draws
  obtain ⟨hlen, hall⟩ := write_frames hevp hc env hst hbs
  rw [streamRelayFrameCost_eq hc hst] at hroom
  rcases hfr with rfl | hfr
  · rw [List.length_eq_zero_iff.mp (Nat.le_zero.mp hlen)]
    exact fun h hh => absurd hh List.not_mem_nil
  · refine Switchboard.sendAll_noOverrun draws _ sb 0 hs hfr ?_ ?_
    · intro f hf
      obtain ⟨g, hg, rfl⟩ := List.mem_map.mp hf
      rw [hmax]
      exact hall g hg
    · intro w hw
      rw [List.length_map, hmax]
      exact Nat.le_trans (Nat.mul_le_mul_right _ hlen)
        (Nat.le_trans hroom (Switchboard.minConnFree_le hw))

/-! ## A queue filled to the byte -/

theorem Conn.init_isSome (fr : Framing) {m cap : Nat} (hm : 0 < m) (hmax : m ≤ connMaxFrameLen)
    (hcap : 0 < cap) : ∃ c, Conn.init fr m cap = some c := by
  have henv : 0 < 2 * fr.recvEnvelopeLen m := by
    cases fr <;> simp only [Framing.recvEnvelopeLen, connRecordHeaderLen, connWsEnvelopeLen] <;> omega
  obtain ⟨q, hq⟩ := ByteQueue.init_isSome henv
  obtain ⟨q', hq'⟩ := ByteQueue.init_isSome hcap
  unfold Conn.init
  rw [if_neg (by omega), hq, hq']
  exact ⟨_, rfl⟩

/-- Every list of framings is that of a reachable pool with nothing queued. -/
theorem exists_fresh (evp : Evp) {c : SessionConfig} (hc : c.Accepted) (framings : List Framing) :
    ∃ sb, PoolReachable evp c sb ∧ sb.broken = false
      ∧ sb.conns.map (·.conn.framing) = framings ∧ ∀ w ∈ sb.conns, w.conn.sendQ.len = 0 := by
  have hsize : frameHeaderLen + frameMaxExtraLen < c.maxOnWireSize :=
    Nat.not_le.mp fun hbad => hc.2 (Or.inl hbad)
  have hmax : c.maxOnWireSize ≤ connMaxFrameLen :=
    Nat.not_lt.mp fun hbad => hc.2 (Or.inr (Or.inr (Or.inr (Or.inr hbad))))
  have hcap : 0 < c.connSendQueueCap :=
    Nat.pos_of_ne_zero fun hbad => hc.2 (Or.inr (Or.inr (Or.inr (Or.inl hbad))))
  induction framings using List.reverseRecOn with
  | nil =>
    refine ⟨⟨c.maxOnWireSize, c.connSendQueueCap, [], false⟩, .init ?_, rfl, rfl,
      fun w hw => absurd hw List.not_mem_nil⟩
    rw [Switchboard.init, if_neg (by omega)]
  | append_singleton framings fr ih =>
    obtain ⟨sb, hr, hb, hfr, hempty⟩ := ih
    obtain ⟨_, hm, hq⟩ := hr.sound
    obtain ⟨conn, hconn⟩ := Conn.init_isSome fr (m := c.maxOnWireSize) (by omega) hmax hcap
    obtain ⟨_, hfr', _, _, _, _, hcont, _⟩ := Conn.init_spec hconn
    have hadd : sb.addConnFramed fr = some { sb with conns := sb.conns ++ [.fresh conn] } := by
      rw [Switchboard.addConnFramed, if_neg (by rw [hb]; decide), hm, hq, hconn]
    refine ⟨_, hr.addConn hadd, hb, ?_, ?_⟩
    · rw [List.map_append, hfr]
      simp only [List.map_cons, List.map_nil, ConnWorld.fresh, hfr']
    · intro w hw
      rcases List.mem_append.mp hw with hold | hnew
      · exact hempty w hold
      · rw [List.mem_singleton.mp hnew]
        exact (ByteQueue.contents_eq_nil_iff _).mp hcont

/-- A masked frame of which the kernel takes only the first `k` bytes. -/
theorem ConnWorld.step_send_short (w : ConnWorld) (frame : List UInt8) (k : Nat)
    (hws : w.conn.framing = .wsClient) (hmax : w.conn.maxFrameLen ≤ connMaxFrameLen)
    (hopen : w.conn.sendQ.closed = false) (hlive : w.conn.broken = false)
    (hlen : frame.length ≤ w.conn.maxFrameLen)
    (hfit : w.conn.envelopeLen frame.length ≤ w.conn.sendQ.freeSpace)
    (hk : k < min (w.conn.sendQ.len + w.conn.envelopeLen frame.length) connIoChunk) :
    (w.step (.send frame [.wrote k] [])).conn.sendQ.len
        = w.conn.sendQ.len + w.conn.envelopeLen frame.length - k
      ∧ (w.step (.send frame [.wrote k] [])).conn.broken = false := by
  have hne : (w.facing [.wrote k] []).conn.framing ≠ .tlsRecord := by
    change w.conn.framing ≠ _
    rw [hws]
    decide
  obtain ⟨hno, _⟩ | ⟨_, q, _, hcont, heq⟩ := (w.facing [.wrote k] []).wsEnqueueFrame_cases frame
    (Nat.le_trans hlen hmax) hopen hne
  · exact absurd hfit (Nat.not_le.mpr hno)
  · have hqlen : q.len = w.conn.sendQ.len + w.conn.envelopeLen frame.length := by
      have hl := congrArg List.length hcont
      rw [List.length_append, Framing.length_envelope _ _ _ (Nat.le_trans hlen hmax)] at hl
      simp only [ByteQueue.length_contents] at hl
      exact hl
    have hdrop : (w.facing [.wrote k] []).dropKey = w.facing [.wrote k] [] := by
      rw [dropKey, if_pos (show (w.facing [.wrote k] []).conn.framing = .wsClient from hws)]
      rfl
    have hlt : k < min q.len connIoChunk := by rw [hqlen]; exact hk
    have hsend : (w.step (.send frame [.wrote k] []))
        = ConnWorld.tryDrainSend
          { w.facing [.wrote k] [] with conn := { w.conn with sendQ := q } } := by
      rw [step, send, if_neg (show ¬ (w.facing [.wrote k] []).conn.broken = true by
          rw [show (w.facing [.wrote k] []).conn.broken = w.conn.broken from rfl, hlive]; decide),
        if_neg (show ¬ (w.facing [.wrote k] []).conn.maxFrameLen < frame.length from
          Nat.not_lt.mpr hlen), if_pos hne, heq, hdrop]
      rfl
    rw [hsend, tryDrainSend, drainLoop, if_neg (by dsimp only; omega)]
    dsimp only [facing]
    rw [if_pos hlt]
    dsimp only
    rw [sendQ_setWantWritable, broken_setWantWritable, ByteQueue.len_read, hqlen]
    exact ⟨rfl, hlive⟩

/-- A fresh stream of the session. -/
theorem exists_stream {c : SessionConfig} (hc : c.Accepted) :
    ∃ st : Stream, st.SizedFor c ∧ st.nextWriteSeq = 0 ∧ st.writeClosed = false := by
  have hsize : frameHeaderLen + frameMaxExtraLen < c.maxOnWireSize :=
    Nat.not_le.mp fun hbad => hc.2 (Or.inl hbad)
  have hrecv : c.maxOnWireSize - frameHeaderLen ≤ c.streamRecvCapacity :=
    Nat.not_lt.mp fun hbad => hc.2 (Or.inr (Or.inr (Or.inl hbad)))
  obtain ⟨st, hst⟩ := Stream.init_isOk 1 c.obfuscator c.maxOnWireSize c.streamRecvCapacity
    c.streamMaxPendingFrames c.ordering hc.1 hsize hrecv
  refine ⟨st, Session.sizedFor_initStream hst, (Stream.init_spec hst).2.2.2.1, ?_⟩
  unfold Stream.init at hst
  split at hst
  · cases hst
  · split at hst
    · cases hst
    · split at hst
      · cases hst
      · split at hst
        · cases hst
        · cases hst
          rfl

/-- A small frame of the session, for filling queues: at most 31 bytes. -/
theorem exists_smallFrame {evp : Evp} (hevp : evp.Lawful) {c : SessionConfig} (hc : c.Accepted) :
    ∃ (st st' : Stream) (draws : FrameDraws) (f : SealedFrame), st.SizedFor c
      ∧ st.sealFrame evp closingNothing [0] draws = (st', some f) ∧ f.wire.length ≤ 31 := by
  obtain ⟨st, hst, _⟩ := exists_stream hc
  obtain ⟨st', f, hseal, hlen, _⟩ := Session.sealFrame_sized hevp hc hst closingNothing [0]
    ⟨0, fun _ => 0⟩ (by decide) st.maxPayload_pos
  have htag := (Frame.tagLenForMethod_bounds st.obfuscator.method).2
  have hpad : Frame.padLen st.obfuscator ⟨st.id, st.nextWriteSeq, closingNothing, [0]⟩
      ⟨0, fun _ => 0⟩ = 0 := by
    unfold Frame.padLen
    split
    · cases st.obfuscator.method <;> decide
    · rfl
  refine ⟨st, st', ⟨0, fun _ => 0⟩, f, hst, hseal, ?_⟩
  rw [hlen, Frame.usefulLen, hpad]
  simp only [frameHeaderLen, aeadTagLen, List.length_singleton] at *
  omega

/-- A client connection can be filled to any level that leaves room for one more small frame, the
    other connections staying empty: each turn queues a frame and lets the socket take all but one
    byte of as much. -/
theorem exists_filled {evp : Evp} (hevp : evp.Lawful) {c : SessionConfig} (hc : c.Accepted)
    {framings : List Framing} {i : Nat} (hi : framings[i]? = some .wsClient) (t : Nat)
    (ht : t + connRecordHeaderLen + c.maxOnWireSize ≤ c.connSendQueueCap) :
    ∃ sb w, PoolReachable evp c sb ∧ sb.broken = false
      ∧ sb.conns.map (·.conn.framing) = framings ∧ sb.conns[i]? = some w ∧ w.conn.sendQ.len = t
      ∧ ∀ j v, sb.conns[j]? = some v → j ≠ i → v.conn.sendQ.len = 0 := by
  have hsize : frameHeaderLen + frameMaxExtraLen < c.maxOnWireSize :=
    Nat.not_le.mp fun hbad => hc.2 (Or.inl hbad)
  have h269 : frameHeaderLen + frameMaxExtraLen = 269 := rfl
  induction t with
  | zero =>
    obtain ⟨sb, hr, hb, hfr, hempty⟩ := exists_fresh evp hc framings
    have hlt : i < sb.conns.length := by
      have := (List.getElem?_eq_some_iff.mp hi).1
      rwa [← hfr, List.length_map] at this
    exact ⟨sb, sb.conns[i], hr, hb, hfr, List.getElem?_eq_getElem hlt,
      hempty _ (List.getElem_mem hlt), fun j v hv _ => hempty v (List.mem_of_getElem? hv)⟩
  | succ t ih =>
    obtain ⟨sb, w, hr, hb, hfr, hw, hlen, hothers⟩ := ih (by omega)
    obtain ⟨st, st', draws, f, hst, hseal, hsmall⟩ := exists_smallFrame hevp hc
    obtain ⟨hs, hm, hq⟩ := hr.sound
    have hmem := List.mem_of_getElem? hw
    have hilt : i < sb.conns.length := (List.getElem?_eq_some_iff.mp hw).1
    have hclient : w.conn.framing = .wsClient := by
      have hget : (sb.conns.map (·.conn.framing))[i]? = some w.conn.framing := by
        rw [List.getElem?_map, hw]
        rfl
      rw [hfr, hi] at hget
      exact (Option.some.inj hget).symm
    have henv : w.conn.envelopeLen f.wire.length = f.wire.length + 6 := by
      rw [Conn.envelopeLen, hclient, Framing.envelopeLen_wsClient, if_neg]
      simp only [wsFrameMaxControlPayload]
      omega
    have hfree : w.conn.sendQ.freeSpace = c.connSendQueueCap - t := by
      rw [ByteQueue.freeSpace, hs.cap w hmem, hq, hlen]
    have hmaxw := hs.maxFrameLen w hmem
    have hmaxc := hs.maxFrameLen_le
    have hchunk : connIoChunk = 4096 := rfl
    have hshort := w.step_send_short f.wire (f.wire.length + 5) hclient (by omega)
      (hs.opened w hmem) (hs.live hb w hmem) (by omega) (by omega) (by omega)
    rw [henv, hlen] at hshort
    have hpick : sb.pickConn i = i := Nat.mod_eq_of_lt hilt
    have hsent : (sb.send f.wire i [.wrote (f.wire.length + 5)] []).1
        = { sb with
            conns := sb.conns.set i (w.step (.send f.wire [.wrote (f.wire.length + 5)] []))
            broken := sb.broken
              || (w.step (.send f.wire [.wrote (f.wire.length + 5)] [])).conn.broken } := by
      simp only [Switchboard.send, hb, hpick, hw, Switchboard.stepConn]
      rfl
    refine ⟨_, w.step (.send f.wire [.wrote (f.wire.length + 5)] []),
      hr.sent hst hseal ⟨i, [.wrote (f.wire.length + 5)], []⟩, ?_, ?_, ?_, by omega, ?_⟩
    · rw [hsent]
      simp only [hb, hshort.2, Bool.or_self]
    · rw [hsent]
      dsimp only
      obtain ⟨_, hget⟩ := List.getElem?_eq_some_iff.mp hw
      rw [List.map_set, (w.step_kept _).framing, ← hget, ← List.map_set, List.set_getElem_self, hfr]
    · rw [hsent]
      exact List.getElem?_set_self hilt
    · intro j v hv hj
      rw [hsent] at hv
      dsimp only at hv
      rw [List.getElem?_set_ne (Ne.symm hj)] at hv
      exact hothers j v hv hj

/-! ## One frame too long -/

/-- The largest padding is drawn by the largest draw. -/
theorem randomPadLen_max (m : AeadMethod) :
    randomPadLen (frameMaxExtraLen - tagLenForMethod m)
        (UInt32.ofNat (frameMaxExtraLen - tagLenForMethod m))
      = frameMaxExtraLen - tagLenForMethod m := by
  cases m <;> decide

/-- One whole payload on a fresh stream can make a frame of exactly the wire size. -/
theorem exists_largestFrame {evp : Evp} (hevp : evp.Lawful) {c : SessionConfig} (hc : c.Accepted) :
    ∃ (st : Stream) (bs : List UInt8) (env : Nat → FrameEnv) (f : SealedFrame), st.SizedFor c
      ∧ bs.length = st.maxPayloadPerFrame ∧ (st.write evp bs env).2.1 = [f]
      ∧ f.wire.length = c.maxOnWireSize := by
  have hsize : frameHeaderLen + frameMaxExtraLen < c.maxOnWireSize :=
    Nat.not_le.mp fun hbad => hc.2 (Or.inl hbad)
  obtain ⟨st, hst, hseq, hopen⟩ := exists_stream hc
  have hpay := st.maxPayload_pos
  have hlen : (List.replicate st.maxPayloadPerFrame (0 : UInt8)).length = st.maxPayloadPerFrame :=
    List.length_replicate
  generalize List.replicate st.maxPayloadPerFrame (0 : UInt8) = bs at hlen
  obtain ⟨st', f, hseal, hwire, _⟩ := Session.sealFrame_sized hevp hc hst closingNothing
    (bs.take st.maxPayloadPerFrame)
    ⟨UInt32.ofNat (frameMaxExtraLen - tagLenForMethod st.obfuscator.method), fun _ => 0⟩
    (by rw [List.length_take]; omega) (List.length_take_le _ _)
  refine ⟨st, bs, fun _ => ⟨⟨UInt32.ofNat (frameMaxExtraLen - tagLenForMethod st.obfuscator.method),
    fun _ => 0⟩, false⟩, f, hst, hlen, ?_, ?_⟩
  · rw [Stream.write, if_neg (by rw [hopen]; decide), if_neg (by omega)]
    obtain ⟨n, hn⟩ : ∃ n, bs.length = n + 1 := ⟨bs.length - 1, by omega⟩
    rw [hn, Stream.writeLoop, if_neg (by omega), hseal]
    rfl
  · have htag := (Frame.tagLenForMethod_bounds st.obfuscator.method).2
    have h255 : frameMaxExtraLen = 255 := rfl
    have h16 : aeadTagLen = 16 := rfl
    have hmax := hst.maxPayload
    rw [hwire, Frame.usefulLen, Frame.padLen,
      if_pos (by dsimp only; rw [hseq]; decide), randomPadLen_max, List.length_take]
    omega

/-- Where one frame fits, the budget is at least one payload. -/
theorem le_streamRelayFdReadBudget {minConnFree : Nat} {st : Stream}
    (hfit : streamRelayFrameCost st ≤ minConnFree) (hpay : st.maxPayloadPerFrame ≤ streamRelayChunk) :
    st.maxPayloadPerFrame ≤ (streamRelayFdReadBudget minConnFree st ⟨none, 0, 0⟩).1 := by
  have hframes : 0 < minConnFree / streamRelayFrameCost st :=
    Nat.div_pos hfit (streamRelayFrameCost_pos st)
  have hmul : st.maxPayloadPerFrame
      ≤ minConnFree / streamRelayFrameCost st * st.maxPayloadPerFrame :=
    Nat.le_mul_of_pos_left _ hframes
  have hpool : st.maxPayloadPerFrame ≤ streamRelayPoolBudget minConnFree st := by
    unfold streamRelayPoolBudget
    split <;> omega
  have hpos := st.maxPayload_pos
  unfold streamRelayFdReadBudget
  split
  · omega
  · split
    · next hnone =>
      change (streamRelayPoolBudget minConnFree st : Int) ≤ 0 at hnone
      omega
    · exact hpool

/-- A pool with a client connection of a relay-sized capacity is not safe. -/
theorem not_relaySafe {evp : Evp} (hevp : evp.Lawful) {c : SessionConfig} (hc : c.Accepted)
    {framings : List Framing} (hclient : .wsClient ∈ framings)
    (hcap : c.maxOnWireSize + connRecordHeaderLen ≤ c.connSendQueueCap) :
    ¬ RelaySafe evp c framings := by
  intro hsafe
  obtain ⟨i, hi⟩ := List.mem_iff_getElem?.mp hclient
  obtain ⟨sb, w, hr, hb, hfr, hw, hlen, hothers⟩ := exists_filled hevp hc hi
    (c.connSendQueueCap - (c.maxOnWireSize + connRecordHeaderLen)) (by omega)
  obtain ⟨st, bs, env, f, hst, hbs, hframes, hwire⟩ := exists_largestFrame hevp hc
  obtain ⟨hs, hm, hq⟩ := hr.sound
  have hmem := List.mem_of_getElem? hw
  have hsize : frameHeaderLen + frameMaxExtraLen < c.maxOnWireSize :=
    Nat.not_le.mp fun hbad => hc.2 (Or.inl hbad)
  have hmax : c.maxOnWireSize ≤ connMaxFrameLen :=
    Nat.not_lt.mp fun hbad => hc.2 (Or.inr (Or.inr (Or.inr (Or.inr hbad))))
  have hwfree : w.conn.sendQ.freeSpace = c.maxOnWireSize + connRecordHeaderLen := by
    rw [ByteQueue.freeSpace, hs.cap w hmem, hq, hlen]
    omega
  -- every connection has room for one frame at its cost, this one no more than that
  have hmin : streamRelayFrameCost st ≤ sb.minConnFree := by
    obtain ⟨v, hv, heq⟩ := Switchboard.exists_minConnFree (List.ne_nil_of_mem hmem)
    obtain ⟨j, hj⟩ := List.mem_iff_getElem?.mp hv
    rw [heq, streamRelayFrameCost_eq hc hst]
    by_cases hji : j = i
    · rw [hji, hw] at hj
      rw [← Option.some.inj hj]
      omega
    · rw [ByteQueue.freeSpace, hs.cap v hv, hq, hothers j v hj hji]
      omega
  have hpayload : st.maxPayloadPerFrame ≤ streamRelayChunk := by
    have hpay := hst.maxPayload
    simp only [frameHeaderLen, frameMaxExtraLen, connMaxFrameLen, streamRelayChunk] at *
    omega
  have hno := hsafe.stream sb hr hb hfr st hst ⟨none, 0, 0⟩ bs
    (hbs ▸ le_streamRelayFdReadBudget hmin hpayload) env (fun _ => ⟨i, [], []⟩) ⟨w.conn, f.wire⟩
  refine hno ?_ ⟨hs.live hb w hmem, by dsimp only; rw [hs.maxFrameLen w hmem, hm, hwire], ?_⟩
  · have hpick : sb.pickConn i = i :=
      Nat.mod_eq_of_lt (List.getElem?_eq_some_iff.mp hw).1
    rw [hframes]
    simp only [List.map_cons, List.map_nil, Switchboard.sendAll, Switchboard.handed, hb, hpick, hw]
    exact List.mem_cons_self
  · have hget : (sb.conns.map (·.conn.framing))[i]? = some w.conn.framing := by
      rw [List.getElem?_map, hw]
      rfl
    rw [hfr, hi] at hget
    have h125 : wsFrameMaxControlPayload = 125 := rfl
    have h269 : frameHeaderLen + frameMaxExtraLen = 269 := rfl
    have h5 : connRecordHeaderLen = 5 := rfl
    dsimp only
    rw [Conn.envelopeLen, ← Option.some.inj hget, Framing.envelopeLen_wsClient, hwire, hwfree,
      if_pos (by omega)]
    omega

/-- The budgets keep their promise exactly for the pools without a WebSocket client connection, and
    where the queue capacity is below the cost of a frame, so that no relay ever reads. -/
theorem relaySafe_iff (evp : Evp) (hevp : evp.Lawful) (c : SessionConfig) (hc : c.Accepted)
    (framings : List Framing) :
    RelaySafe evp c framings
      ↔ .wsClient ∉ framings ∨ c.connSendQueueCap < c.maxOnWireSize + connRecordHeaderLen := by
  constructor
  · intro hsafe
    by_contra hno
    obtain ⟨hclient, hcap⟩ := not_or.mp hno
    exact not_relaySafe hevp hc (not_not.mp hclient) (Nat.not_lt.mp hcap) hsafe
  · intro hgood
    -- in either case, a positive number of frames comes without client connections
    have hframes : ∀ {sb : Switchboard}, PoolReachable evp c sb →
        sb.conns.map (·.conn.framing) = framings → ∀ k, k * (connRecordHeaderLen + c.maxOnWireSize)
          ≤ sb.minConnFree → k = 0 ∨ ∀ w ∈ sb.conns, w.conn.framing ≠ .wsClient := by
      intro sb hr hfr k hk
      rcases hgood with hclient | hcap
      · refine Or.inr fun w hw hws => hclient ?_
        rw [← hfr, ← hws]
        exact List.mem_map_of_mem hw
      · refine Or.inl (Nat.eq_zero_of_not_pos fun hpos => ?_)
        obtain ⟨hs, _, hq⟩ := hr.sound
        have hle := Nat.le_trans (Nat.le_mul_of_pos_left (connRecordHeaderLen + c.maxOnWireSize) hpos) hk
        have h5 : connRecordHeaderLen = 5 := rfl
        have hne : sb.conns ≠ [] := by
          intro hnil
          rw [Switchboard.minConnFree, hnil] at hle
          dsimp only at hle
          omega
        obtain ⟨v, hv, heq⟩ := Switchboard.exists_minConnFree hne
        have hvcap := hs.cap v hv
        rw [heq, ByteQueue.freeSpace] at hle
        omega
    refine ⟨?_, ?_⟩
    · intro sb hr _ hfr st hst v bs hbs
      have hdiv : sb.minConnFree / streamRelayFrameCost st * streamRelayFrameCost st
          ≤ sb.minConnFree := Nat.div_mul_le_self _ _
      refine noOverrun_of_room hevp hc hr hst (Nat.le_trans hbs (streamRelayFdReadBudget_le _ _ _))
        (hframes hr hfr _ ?_) hdiv
      rw [← streamRelayFrameCost_eq hc hst]
      exact hdiv
    · intro sb hr _ hfr st hst v bs haccept hbs
      have hfit : streamRelayFrameCost st ≤ sb.minConnFree := by
        unfold dgramRelayCanAcceptFrame at haccept
        split at haccept
        · cases haccept
        · next hlt => exact Nat.not_lt.mp hlt
      refine noOverrun_of_room hevp hc hr hst (k := 1) (by omega) (hframes hr hfr 1 ?_) (by omega)
      rw [← streamRelayFrameCost_eq hc hst]
      omega

/-- A pool of record and server connections is safe at the smallest configuration. -/
theorem relaySafe_iff_server : RelaySafe Evp.plain Session.smallConfig [.tlsRecord, .wsServer] :=
  (relaySafe_iff Evp.plain Evp.plain_lawful Session.smallConfig (by decide) _).mpr
    (Or.inl (by decide))

/-- One client connection at the same configuration: its empty queue lets the relay read one byte,
    and the frame of that byte, padded to the full, breaks it. -/
theorem relay_overruns_wsClient : ∃ sb st, PoolReachable Evp.plain Session.smallConfig sb
    ∧ sb.broken = false ∧ sb.conns.map (·.conn.framing) = [.wsClient]
    ∧ Session.initStream Session.smallConfig 1 = .ok st
    ∧ (streamRelayFdReadBudget sb.minConnFree st ⟨none, 0, 0⟩).1 = 1
    ∧ (∃ h ∈ (sb.sendAll (fun _ => ⟨0, [], []⟩) 0
        ((st.write Evp.plain [7] fun _ => ⟨⟨247, fun _ => 0⟩, true⟩).2.1.map (·.wire))).2,
      h.conn.Overruns h.frame)
    ∧ (sb.sendAll (fun _ => ⟨0, [], []⟩) 0
        ((st.write Evp.plain [7] fun _ => ⟨⟨247, fun _ => 0⟩, true⟩).2.1.map (·.wire))).1.broken = true
    ∧ ¬ RelaySafe Evp.plain Session.smallConfig [.wsClient] := by
  refine ⟨(Switchboard.addConnFramed ⟨270, 275, [], false⟩ .wsClient).get rfl, _,
    .addConn (.init (show Switchboard.init 270 275 = some ⟨270, 275, [], false⟩ from rfl))
      (Option.some_get _).symm,
    by decide +kernel, by decide +kernel, rfl, by decide +kernel, by decide +kernel,
    by decide +kernel, ?_⟩
  exact not_relaySafe Evp.plain_lawful (by decide) (by decide) (by decide)

end Cloak
