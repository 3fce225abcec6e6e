import Cloak.Mux.RelayBudget
import Cloak.Mux.WsReceive

set_option autoImplicit false

/-! # Queues that run empty and queues that run over

When a step of a connection reports a drained queue, and when it breaks the connection for want of
room, said in terms of the queue's length, the room in it and what the kernel will take. Two kinds of
steps queue something first: a send of the session, and a turn of the dispatch loop that answers a
ping or a close of the peer. -/

namespace Cloak

open Lib

/-- Whether the kernel takes `len` bytes, offered a chunk at a time. -/
def takesAll : (len : Nat) → List SendRes → Bool
  | len, .wrote k :: ks => len == 0 || (decide (min len connIoChunk ≤ k) && takesAll (len - connIoChunk) ks)
  | len, _ => len == 0

theorem takesAll_zero (ks : List SendRes) : takesAll 0 ks = true := by
  unfold takesAll
  split <;> rfl

namespace ConnWorld

/-- The payload of the control frame the next turn of the dispatch loop answers with. -/
def reply? (w : ConnWorld) : Option (List UInt8) :=
  match w.turn with
  | .take _ _ act => act.reply?
  | _ => none

/-- The connection is alive and has room for the envelope of `n` bytes. -/
def RoomFor (w : ConnWorld) (n : Nat) : Prop :=
  w.conn.broken = false ∧ w.conn.envelopeLen n ≤ w.conn.sendQ.freeSpace

instance (w : ConnWorld) (n : Nat) : Decidable (w.RoomFor n) := inferInstanceAs (Decidable (_ ∧ _))

/-- The connection waits for its socket, and the kernel takes the `len` bytes queued by then. -/
def Flushes (w : ConnWorld) (len : Nat) (kernel : List SendRes) : Prop :=
  w.conn.wantWritable = true ∧ takesAll len kernel = true

instance (w : ConnWorld) (len : Nat) (kernel : List SendRes) : Decidable (w.Flushes len kernel) :=
  inferInstanceAs (Decidable (_ ∧ _))

/-- The step empties a queue that has been waiting for the socket. -/
def Empties (w : ConnWorld) : ConnEv → Prop
  | .send frame kernel _ =>
    frame.length ≤ w.conn.maxFrameLen ∧ w.RoomFor frame.length
      ∧ w.Flushes (w.conn.sendQ.len + w.conn.envelopeLen frame.length) kernel
  | .drain kernel => w.conn.broken = false ∧ w.Flushes w.conn.sendQ.len kernel
  | .dispatch kernel _ =>
    match w.reply? with
    | none => False
    | some ctl =>
      w.RoomFor ctl.length ∧ w.Flushes (w.conn.sendQ.len + w.conn.envelopeLen ctl.length) kernel
  | _ => False

instance (w : ConnWorld) (ev : ConnEv) : Decidable (w.Empties ev) :=
  match ev with
  | .send _ _ _ => inferInstanceAs (Decidable (_ ∧ _ ∧ _))
  | .drain _ => inferInstanceAs (Decidable (_ ∧ _))
  | .dispatch kernel _ =>
    match h : w.reply? with
    | none => .isFalse (by simp [Empties, h])
    | some ctl => decidable_of_iff (w.RoomFor ctl.length
        ∧ w.Flushes (w.conn.sendQ.len + w.conn.envelopeLen ctl.length) kernel) (by simp [Empties, h])
  | .read _ _ => .isFalse id
  | .pauseForRate _ => .isFalse id
  | .rxTimer => .isFalse id
  | .hangUp => .isFalse id

/-- What queuing `n` bytes does. -/
structure Queued (n : Nat) (w w' : ConnWorld) : Prop where
  len : w'.conn.sendQ.len = w.conn.sendQ.len + n
  broken : w'.conn.broken = w.conn.broken
  wantWritable : w'.conn.wantWritable = w.conn.wantWritable
  drained : w'.drained = w.drained
  kernel : w'.kernel = w.kernel

/-! ## Draining -/

theorem drainLoop_notices (was : Bool) (fuel : Nat) (w : ConnWorld) (hfuel : w.conn.sendQ.len < fuel) :
    (drainLoop was fuel w).drained
      = w.drained + if was = true ∧ takesAll w.conn.sendQ.len w.kernel = true then 1 else 0 := by
  induction fuel generalizing w with
  | zero => omega
  | succ fuel ih =>
    rw [drainLoop]
    split
    · next hempty =>
      rw [hempty, takesAll_zero]
      cases was <;> rfl
    · next hfull =>
      have hne : (w.conn.sendQ.len == 0) = false := beq_eq_false_iff_ne.mpr hfull
      split
      · next hk => simp [hk, takesAll, hne]
      · next hk => simp [hk, takesAll, hne]
      · next hk => simp [hk, takesAll, hne]
      · next k ks hk =>
        split
        · next hshort => simp [hk, takesAll, hne, Nat.not_le.mpr hshort]
        · next hwhole =>
          have hpos : 0 < connIoChunk := by decide
          rw [ih _ (by dsimp only; rw [ByteQueue.len_read]; omega), hk, takesAll, hne]
          simp [Nat.not_lt.mp hwhole, ByteQueue.len_read]

theorem tryDrainSend_notices (w : ConnWorld) :
    w.tryDrainSend.drained
      = w.drained + if w.Flushes w.conn.sendQ.len w.kernel then 1 else 0 :=
  drainLoop_notices _ _ _ (Nat.lt_succ_self _)

/-- A drain of queued bytes. -/
theorem Queued.notices {n : Nat} {w w' : ConnWorld} (h : w.Queued n w') :
    w'.tryDrainSend.drained
      = w.drained + if w.Flushes (w.conn.sendQ.len + n) w.kernel then 1 else 0 := by
  have hiff : w'.Flushes w'.conn.sendQ.len w'.kernel ↔ w.Flushes (w.conn.sendQ.len + n) w.kernel := by
    simp only [Flushes, h.len, h.wantWritable, h.kernel]
  rw [tryDrainSend_notices, h.drained, if_congr hiff rfl rfl]

/-- Unless the kernel reports an error, a drain breaks nothing. -/
theorem Queued.live {n : Nat} {w w' : ConnWorld} (h : w.Queued n w') (hk : .error ∉ w.kernel) :
    w'.tryDrainSend.conn.broken = w.conn.broken := by
  rw [tryDrainSend, drainLoop_live _ _ _ (by rw [h.kernel]; exact hk), h.broken]

/-! ## Queuing -/

/-- A frame with header `hdr` breaks the connection for want of room, or is queued whole. -/
theorem wsEnqueueFrame_of_header {w : ConnWorld} {op : WsOpcode} {payload hdr : List UInt8}
    (hhdr : wsFrameWriteHeader wsFrameMaxHeaderLen op true w.drawKey payload.length = some hdr)
    (hopen : w.conn.sendQ.closed = false) :
    (w.conn.sendQ.freeSpace < hdr.length + payload.length
        ∧ w.wsEnqueueFrame op payload = (w.dropKey.markBroken, false))
      ∨ (hdr.length + payload.length ≤ w.conn.sendQ.freeSpace
        ∧ ∃ w', w.Queued (hdr.length + payload.length) w'
          ∧ w.wsEnqueueFrame op payload = (w', true)) := by
  have hdrop : w.dropKey.conn = w.conn ∧ w.dropKey.drained = w.drained
      ∧ w.dropKey.kernel = w.kernel := by
    unfold dropKey
    split <;> exact ⟨rfl, rfl, rfl⟩
  unfold wsEnqueueFrame
  rw [hhdr]
  dsimp only
  split
  · next hfull => exact Or.inl ⟨hfull, rfl⟩
  · next hfit =>
    have hwrite := w.conn.sendQ.len_write hdr hopen (by omega)
    have hopen' : (w.conn.sendQ.write hdr).1.closed = false := by
      rw [ByteQueue.closed_write, hopen]
    have hroom : payload.length ≤ (w.conn.sendQ.write hdr).1.freeSpace := by
      unfold ByteQueue.freeSpace at hfit ⊢
      rw [ByteQueue.cap_write, hwrite]
      omega
    refine Or.inr ⟨Nat.not_lt.mp hfit, _, ?_, rfl⟩
    refine ⟨?_, ?_, ?_, hdrop.2.1, hdrop.2.2⟩
    · dsimp only
      split
      · rw [ByteQueue.len_write _ _ hopen' hroom, hwrite]
        omega
      · next key _ =>
        have hcont := (contents_enqueueMasked key _ _ 0 payload (Nat.le_refl _) hopen' hroom).1
        rw [← ByteQueue.length_contents, hcont, List.length_append, length_wsFrameMask,
          ByteQueue.length_contents, hwrite]
        omega
    · simp only [hdrop.1]
    · simp only [hdrop.1]

/-- A send is refused, which breaks the connection, or queues an envelope and drains. -/
theorem send_spec (w : ConnWorld) (frame : List UInt8) (hmax : w.conn.maxFrameLen ≤ connMaxFrameLen)
    (hopen : w.conn.sendQ.closed = false) :
    (¬ (frame.length ≤ w.conn.maxFrameLen ∧ w.RoomFor frame.length)
        ∧ (w.send frame).1.conn.broken = true ∧ (w.send frame).1.drained = w.drained)
      ∨ ((frame.length ≤ w.conn.maxFrameLen ∧ w.RoomFor frame.length)
        ∧ ∃ w', w.Queued (w.conn.envelopeLen frame.length) w' ∧ (w.send frame).1 = w'.tryDrainSend) := by
  have hdrop : w.dropKey.markBroken.drained = w.drained := by
    unfold dropKey
    split <;> rfl
  unfold send
  split
  · next hb => exact Or.inl ⟨fun hok => Bool.eq_false_iff.mp hok.2.1 hb, hb, rfl⟩
  · next hb =>
    have hlive : w.conn.broken = false := Bool.eq_false_iff.mpr hb
    split
    · next hlong => exact Or.inl ⟨fun hok => absurd hok.1 (Nat.not_le.mpr hlong), rfl, rfl⟩
    · next hlen =>
      split
      · next hws =>
        have henv := w.length_wsDataHeader_drawKey frame.length (by omega) hws
        rcases @wsEnqueueFrame_of_header w _ frame _
          (wsDataHeader_spec w.drawKey frame.length (by omega)) hopen with
          ⟨hfull, heq⟩ | ⟨hfit, w', hq, heq⟩
        · rw [heq]
          refine Or.inl ⟨fun hok => ?_, rfl, hdrop⟩
          have hroom := hok.2.2
          omega
        · rw [heq, henv] at *
          exact Or.inr ⟨⟨Nat.not_lt.mp hlen, hlive, by omega⟩, w', hq, rfl⟩
      · next hws =>
        have htls : w.conn.framing = .tlsRecord := not_not.mp hws
        have henv : ∀ n, w.conn.envelopeLen n = connRecordHeaderLen + n := by
          intro n
          rw [Conn.envelopeLen, htls]
          rfl
        split
        · next hlong =>
          rw [henv] at hlong
          omega
        · split
          · next hfull =>
            refine Or.inl ⟨fun hok => ?_, rfl, rfl⟩
            have hroom := hok.2.2
            rw [henv] at hroom
            omega
          · next hfit =>
            have hhlen : (tlsHeader frame.length).length = connRecordHeaderLen := by
              simp [tlsHeader, connRecordHeaderLen]
            have hwrite := w.conn.sendQ.len_write (tlsHeader frame.length) hopen (by omega)
            have hroom : frame.length
                ≤ (w.conn.sendQ.write (tlsHeader frame.length)).1.freeSpace := by
              unfold ByteQueue.freeSpace at hfit ⊢
              rw [ByteQueue.cap_write, hwrite]
              omega
            refine Or.inr ⟨⟨Nat.not_lt.mp hlen, hlive, by rw [henv]; omega⟩, _, ?_, rfl⟩
            refine ⟨?_, rfl, rfl, rfl, rfl⟩
            dsimp only
            rw [ByteQueue.len_write _ _ (by rw [ByteQueue.closed_write, hopen]) hroom, hwrite, henv]
            omega

/-! ## Answering the peer -/

/-- Only WebSocket connections answer, with control frames. -/
theorem reply_bounds {w : ConnWorld} {n : Nat} {st : Assembly} {act : RecvAct} {ctl : List UInt8}
    (hturn : w.turn = .take n st act) (hctl : act.reply? = some ctl) :
    w.conn.framing ≠ .tlsRecord ∧ ctl.length ≤ wsFrameMaxControlPayload := by
  unfold turn at hturn
  split at hturn
  · unfold tlsTurn at hturn
    split at hturn
    · cases hturn
    · split at hturn
      · cases hturn
      · split at hturn
        · cases hturn
        · cases hturn
          cases hctl
  · next hws =>
    refine ⟨hws, ?_⟩
    unfold wsTurn at hturn
    split at hturn
    · cases hturn
    · cases hturn
    · next hcut =>
      split at hturn
      · cases hturn
        exact reply_length_le (wsFrameCut_control_le hcut) hctl
      · cases hturn

/-- A control frame breaks the connection for want of room, or is queued. -/
theorem wsEnqueueFrame_control {w : ConnWorld} (op : WsOpcode) {ctl : List UInt8}
    (hws : w.conn.framing ≠ .tlsRecord) (hlen : ctl.length ≤ wsFrameMaxControlPayload)
    (hopen : w.conn.sendQ.closed = false) :
    (w.conn.sendQ.freeSpace < w.conn.envelopeLen ctl.length
        ∧ w.wsEnqueueFrame op ctl = (w.dropKey.markBroken, false))
      ∨ (w.conn.envelopeLen ctl.length ≤ w.conn.sendQ.freeSpace
        ∧ ∃ w', w.Queued (w.conn.envelopeLen ctl.length) w' ∧ w.wsEnqueueFrame op ctl = (w', true)) := by
  obtain ⟨hdr, hhdr, henv⟩ := w.exists_controlHeader op hws hlen
  rw [← henv]
  exact wsEnqueueFrame_of_header hhdr hopen

theorem Queued.cutOff {w w' : ConnWorld} {n k : Nat} {st : Assembly}
    (h : (w.cutOff k st).Queued n w') : w.Queued n w' :=
  ⟨h.len, h.broken, h.wantWritable, h.drained, h.kernel⟩

theorem dispatchOnce_unanswered {w : ConnWorld} (h : w.reply? = none) :
    (dispatchOnce .ignore w).1.drained = w.drained := by
  rw [dispatchOnce_eq]
  unfold reply? at h
  split at h
  · next n st act hturn =>
    rw [hturn]
    cases act with
    | handUp msg => rfl
    | nothing => rfl
    | pong ctl => cases h
    | close ctl => cases h
  · next hturn =>
    split
    · rfl
    · rfl
    · next hturn' => exact absurd hturn' (hturn _ _ _)

/-- A turn that answers the peer. A pong that is queued leaves the connection as it was, apart from
    an error of the kernel; every other answer breaks it. -/
theorem dispatchOnce_answered {w : ConnWorld} {ctl : List UInt8} (h : w.reply? = some ctl)
    (hlive : w.conn.broken = false) (hopen : w.conn.sendQ.closed = false) :
    (dispatchOnce .ignore w).1.drained = w.drained
        + (if w.RoomFor ctl.length ∧ w.Flushes (w.conn.sendQ.len + w.conn.envelopeLen ctl.length) w.kernel
          then 1 else 0)
      ∧ (¬ w.RoomFor ctl.length → (dispatchOnce .ignore w).1.conn.broken = true)
      ∧ (w.RoomFor ctl.length → .error ∉ w.kernel → (∃ n st, w.turn = .take n st (.pong ctl)) →
        (dispatchOnce .ignore w).1.conn.broken = false) := by
  unfold reply? at h
  split at h
  · next n st act hturn =>
    obtain ⟨hws, hlen⟩ := reply_bounds hturn h
    rw [dispatchOnce_eq, hturn]
    have hdrop : ∀ v : ConnWorld, v.dropKey.markBroken.drained = v.drained := by
      intro v
      unfold dropKey
      split <;> rfl
    cases act with
    | handUp msg => cases h
    | nothing => cases h
    | pong ctl' =>
      obtain rfl := Option.some.inj h
      rcases wsEnqueueFrame_control (w := w.cutOff n st) .pong hws hlen hopen with
        ⟨hfull, heq⟩ | ⟨hfit, w', hq, heq⟩
      · have hno : ¬ w.RoomFor ctl'.length := fun hroom => Nat.not_le.mpr hfull hroom.2
        simp only [answer, heq]
        rw [if_neg fun hok => hno hok.1]
        exact ⟨hdrop _, fun _ => rfl, fun hroom => absurd hroom hno⟩
      · have hroom : w.RoomFor ctl'.length := ⟨hlive, hfit⟩
        have hq' : w.Queued (w.conn.envelopeLen ctl'.length) w' := hq.cutOff
        simp only [answer, heq]
        refine ⟨?_, fun hno => absurd hroom hno, fun _ hk _ => ?_⟩
        · rw [hq'.notices, if_congr (and_iff_right hroom).symm rfl rfl]
        · rw [hq'.live hk, hlive]
    | close ctl' =>
      obtain rfl := Option.some.inj h
      refine ⟨?_, fun _ => rfl, fun _ _ hpong => by obtain ⟨n', st', hpong⟩ := hpong; cases hpong⟩
      rcases wsEnqueueFrame_control (w := w.cutOff n st) .close hws hlen hopen with
        ⟨hfull, heq⟩ | ⟨hfit, w', hq, heq⟩
      · have hno : ¬ w.RoomFor ctl'.length := fun hroom => Nat.not_le.mpr hfull hroom.2
        simp only [answer, heq]
        rw [if_pos (show (w.cutOff n st).dropKey.markBroken.conn.broken = true from rfl),
          if_neg fun hok => hno (And.left hok)]
        exact hdrop _
      · have hroom : w.RoomFor ctl'.length := ⟨hlive, hfit⟩
        have hq' : w.Queued (w.conn.envelopeLen ctl'.length) w' := hq.cutOff
        simp only [answer, heq]
        rw [if_neg (by rw [hq'.broken, hlive]; exact Bool.false_ne_true)]
        change w'.tryDrainSend.drained = _
        rw [hq'.notices, if_congr (and_iff_right hroom).symm rfl rfl]
  · cases h

/-! ## Every step -/

/-- A step reports a drained queue exactly if it empties one that has been waiting. -/
theorem step_notices (w : ConnWorld) (ev : ConnEv) (hmax : w.conn.maxFrameLen ≤ connMaxFrameLen)
    (hopen : w.conn.sendQ.closed = false) :
    (w.step ev).drained = w.drained + if w.Empties ev then 1 else 0 := by
  have hsame : ∀ {b : Prop} [Decidable b], ¬ b → w.drained = w.drained + if b then 1 else 0 :=
    fun hno => by rw [if_neg hno]; rfl
  cases ev with
  | send frame kernel keys =>
    rcases (w.facing kernel keys).send_spec frame hmax hopen with
      ⟨hno, _, hdrained⟩ | ⟨hok, w', hq, heq⟩
    · rw [step, hdrained]
      exact hsame fun he => hno ⟨he.1, he.2.1⟩
    · rw [step, heq, hq.notices]
      exact congrArg (w.drained + ·) (if_congr
        ⟨fun hf => ⟨hok.1, hok.2, hf⟩, fun he => he.2.2⟩ rfl rfl)
  | drain kernel =>
    dsimp only [step]
    split
    · next hb => exact hsame fun he => Bool.eq_false_iff.mp he.1 hb
    · next hb =>
      rw [tryDrainSend_notices]
      exact congrArg (w.drained + ·) (if_congr
        ⟨fun hf => ⟨Bool.eq_false_iff.mpr hb, hf⟩, fun he => he.2⟩ rfl rfl)
  | read allowed bs =>
    dsimp only [step]
    split <;> rfl
  | dispatch kernel keys =>
    have hreply : (w.facing kernel keys).reply? = w.reply? := rfl
    dsimp only [step]
    split
    · next hb =>
      refine hsame fun he => ?_
      dsimp only [Empties] at he
      split at he
      · exact he
      · exact Bool.eq_false_iff.mp he.1.1 hb
    · next hb =>
      have hlive : w.conn.broken = false := Bool.eq_false_iff.mpr hb
      cases hr : w.reply? with
      | none =>
        rw [dispatchOnce_unanswered (hreply.trans hr)]
        refine hsame fun he => ?_
        simp only [Empties, hr] at he
      | some ctl =>
        rw [(dispatchOnce_answered (hreply.trans hr) hlive hopen).1]
        refine congrArg (w.drained + ·) (if_congr ?_ rfl rfl)
        simp only [Empties, hr]
        exact Iff.rfl
  | pauseForRate timerOk =>
    dsimp only [step]
    split
    · rfl
    · unfold pauseReadForRate
      split <;> rfl
  | rxTimer =>
    dsimp only [step]
    split
    · unfold rxResume handleReadable
      dsimp only
      split <;> rfl
    · rfl
  | hangUp => rfl

end ConnWorld

end Cloak
