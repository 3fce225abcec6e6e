import Cloak.Lib.Run
import Cloak.Mux.Conn

set_option autoImplicit false

/-! # Framing, end to end

A connection sends frames to its peer over a socket that takes as much as it likes when it likes,
and the peer reads the byte stream in whatever pieces it comes. The bytes that have left the sender
and those still queued are always the envelopes of the frames it accepted (`outBytes`), so the
socket sees a prefix of them. On the other side the bytes taken from the socket are the envelopes of
the frames delivered followed by what the accumulator holds, which is less than the next envelope:
one turn of the dispatch loop on such bytes either waits or delivers exactly that frame
(`dispatchOnce_waits`, `dispatchOnce_delivers`). -/

namespace Cloak

open Lib

/-! ## Envelopes -/

/-- The WebSocket header in front of a data frame. -/
def wsDataHeader (maskKey : Option (List UInt8)) (n : Nat) : List UInt8 :=
  (wsFrameWriteHeader wsFrameMaxHeaderLen .binary true maskKey n).getD []

/-- The bytes of one frame on the wire. -/
def Framing.envelope (fr : Framing) (key : MaskKey) (frame : List UInt8) : List UInt8 :=
  match fr with
  | .tlsRecord => ConnWorld.tlsHeader frame.length ++ frame
  | .wsClient => wsDataHeader (some key.val) frame.length ++ wsFrameMask key.val 0 frame
  | .wsServer => wsDataHeader none frame.length ++ frame

/-- The framing at the other end. -/
def Framing.peer : Framing → Framing
  | .tlsRecord => .tlsRecord
  | .wsClient => .wsServer
  | .wsServer => .wsClient

/-- A frame handed to `cloak_conn_send` and the mask key drawn for it. -/
structure SentFrame where
  frame : List UInt8
  key : MaskKey

/-- The envelopes of a list of frames, in order. -/
def Framing.envelopes (fr : Framing) (fs : List SentFrame) : List UInt8 :=
  fs.flatMap fun f => fr.envelope f.key f.frame

theorem Framing.envelopes_append (fr : Framing) (fs gs : List SentFrame) :
    fr.envelopes (fs ++ gs) = fr.envelopes fs ++ fr.envelopes gs :=
  List.flatMap_append

theorem Framing.envelopes_cons (fr : Framing) (f : SentFrame) (fs : List SentFrame) :
    fr.envelopes (f :: fs) = fr.envelope f.key f.frame ++ fr.envelopes fs :=
  List.flatMap_cons

theorem wsDataHeader_spec (maskKey : Option (List UInt8)) (n : Nat) (hn : n ≤ connMaxFrameLen) :
    wsFrameWriteHeader wsFrameMaxHeaderLen .binary true maskKey n
      = some (wsDataHeader maskKey n) := by
  have hext := wsExtLen_wsLen7 n
  have hwrite : ∃ hdr, wsFrameWriteHeader wsFrameMaxHeaderLen .binary true maskKey n = some hdr := by
    rw [wsFrameWriteHeader, if_neg (by rintro ⟨h, _⟩; exact absurd h (by decide)),
      if_neg (by simp only [connMaxFrameLen] at hn; omega), if_neg]
    · exact ⟨_, rfl⟩
    · simp only [wsFrameMaxHeaderLen]
      split at hext
      · split <;> omega
      · split at hext <;> split <;> omega
  obtain ⟨hdr, hhdr⟩ := hwrite
  rw [wsDataHeader, hhdr]
  rfl

theorem length_wsDataHeader (maskKey : Option (List UInt8)) (n : Nat) (hn : n ≤ connMaxFrameLen)
    (hkey : ∀ k ∈ maskKey, k.length = 4) :
    (wsDataHeader maskKey n).length + n = connWsEnvelopeLen n maskKey.isSome := by
  obtain ⟨_, _, hhdr⟩ := wsFrameWriteHeader_eq_some (wsDataHeader_spec maskKey n hn)
  have hk : (maskKey.getD []).length = if maskKey.isSome then 4 else 0 := by
    cases maskKey with
    | none => rfl
    | some k => exact hkey k rfl
  rw [hhdr, List.length_cons, List.length_cons, List.length_append, length_beBytes, hk,
    wsExtLen_wsLen7, connWsEnvelopeLen]
  have hmax : connMaxFrameLen = 16640 := rfl
  have hctl : wsFrameMaxControlPayload = 125 := rfl
  by_cases h125 : n ≤ 125
  · rw [if_pos h125, if_neg (show ¬ wsFrameMaxControlPayload < n by omega)]
    omega
  · rw [if_neg h125, if_pos (show n ≤ 0xffff by omega),
      if_pos (show wsFrameMaxControlPayload < n by omega)]
    omega

/-- `cloak_conn_envelope_len` is the length of the envelope. -/
theorem Framing.length_envelope (fr : Framing) (key : MaskKey) (frame : List UInt8)
    (h : frame.length ≤ connMaxFrameLen) :
    (fr.envelope key frame).length = fr.envelopeLen frame.length := by
  cases fr with
  | tlsRecord =>
    simp [Framing.envelope, ConnWorld.tlsHeader, Framing.envelopeLen, connRecordHeaderLen]
    omega
  | wsClient =>
    have hlen := length_wsDataHeader (some key.val) frame.length h
      (fun k hk => Option.some.inj hk ▸ key.property)
    simpa [Framing.envelope, Framing.envelopeLen] using hlen
  | wsServer =>
    have hlen := length_wsDataHeader none frame.length h (fun k hk => by cases hk)
    simpa [Framing.envelope, Framing.envelopeLen] using hlen

theorem Framing.envelopeLen_bounds (fr : Framing) (n : Nat) : n + 2 ≤ fr.envelopeLen n := by
  cases fr <;> simp only [Framing.envelopeLen, connRecordHeaderLen, connWsEnvelopeLen] <;> omega

/-! ## The send side -/

namespace ConnWorld

/-- What the socket has taken and what is still queued. -/
def outBytes (w : ConnWorld) : List UInt8 := w.socket ++ w.conn.sendQ.contents

@[simp] theorem sendQ_syncInterest (c : Conn) : c.syncInterest.sendQ = c.sendQ := by
  unfold Conn.syncInterest
  split <;> rfl

@[simp] theorem sendQ_setWantWritable (c : Conn) (b : Bool) :
    (c.setWantWritable b).sendQ = c.sendQ := by
  unfold Conn.setWantWritable
  split
  · rfl
  · rw [sendQ_syncInterest]

@[simp] theorem framing_setWantWritable (c : Conn) (b : Bool) :
    (c.setWantWritable b).framing = c.framing := by
  unfold Conn.setWantWritable Conn.syncInterest
  repeat' split
  all_goals rfl

@[simp] theorem maxFrameLen_setWantWritable (c : Conn) (b : Bool) :
    (c.setWantWritable b).maxFrameLen = c.maxFrameLen := by
  unfold Conn.setWantWritable Conn.syncInterest
  repeat' split
  all_goals rfl

@[simp] theorem broken_setWantWritable (c : Conn) (b : Bool) :
    (c.setWantWritable b).broken = c.broken := by
  unfold Conn.setWantWritable Conn.syncInterest
  repeat' split
  all_goals rfl

/-- What a drain may change: bytes move from the queue to the socket, and the connection may turn
    out broken. -/
structure Drained (w w' : ConnWorld) : Prop where
  out : w'.outBytes = w.outBytes
  socket : w.socket <+: w'.socket
  closed : w'.conn.sendQ.closed = w.conn.sendQ.closed
  framing : w'.conn.framing = w.conn.framing
  maxFrameLen : w'.conn.maxFrameLen = w.conn.maxFrameLen
  broken : w.conn.broken = true → w'.conn.broken = true

theorem drainLoop_drained (was : Bool) (fuel : Nat) (w : ConnWorld) :
    w.Drained (drainLoop was fuel w) := by
  induction fuel generalizing w with
  | zero => exact ⟨rfl, List.prefix_refl _, rfl, rfl, rfl, id⟩
  | succ fuel ih =>
    rw [drainLoop]
    split
    · constructor <;> simp [outBytes]
    · split
      · constructor <;> simp [outBytes]
      · constructor <;> simp [outBytes]
      · constructor <;> simp [outBytes, Conn.markBroken]
      · next k ks _ =>
        split
        · next hk =>
          refine ⟨?_, List.prefix_append _ _, ?_, ?_, ?_, ?_⟩
          · -- a short write: the first `k` bytes have moved
            simp only [outBytes, sendQ_setWantWritable, ByteQueue.contents_read, ByteQueue.peek_eq]
            rw [List.take_take, Nat.min_eq_left (by omega), List.append_assoc,
              List.take_append_drop]
          all_goals simp
        · have hdone := ih
            { w with
              conn := { w.conn with sendQ := (w.conn.sendQ.read connIoChunk).2 }
              kernel := ks
              socket := w.socket ++ w.conn.sendQ.peek connIoChunk }
          refine ⟨?_, (List.prefix_append _ _).trans hdone.socket, ?_, hdone.framing,
            hdone.maxFrameLen, hdone.broken⟩
          · rw [hdone.out]
            simp only [outBytes, ByteQueue.contents_read, ByteQueue.peek_eq]
            rw [List.append_assoc, List.take_append_drop]
          · rw [hdone.closed]
            simp

theorem tryDrainSend_drained (w : ConnWorld) : w.Drained w.tryDrainSend :=
  drainLoop_drained _ _ _

/-- The masked copy appends the payload masked as a whole: the position runs across the chunks. -/
theorem contents_enqueueMasked (key : List UInt8) (fuel : Nat) (q : ByteQueue) (pos : Nat)
    (payload : List UInt8) (hfuel : payload.length ≤ fuel) (hopen : q.closed = false)
    (hfit : payload.length ≤ q.freeSpace) :
    (enqueueMasked key fuel q pos payload).contents = q.contents ++ wsFrameMask key pos payload
      ∧ (enqueueMasked key fuel q pos payload).closed = false := by
  induction fuel generalizing q pos payload with
  | zero =>
    have hnil := List.length_eq_zero_iff.mp (Nat.le_zero.mp hfuel)
    subst hnil
    exact ⟨(List.append_nil _).symm, hopen⟩
  | succ fuel ih =>
    rw [enqueueMasked]
    split
    · next hz =>
      have hnil := List.length_eq_zero_iff.mp hz
      subst hnil
      exact ⟨(List.append_nil _).symm, hopen⟩
    · next hz =>
      have hchunk : (wsFrameMask key pos (payload.take connWsMaskChunk)).length ≤ q.freeSpace := by
        rw [length_wsFrameMask, List.length_take]
        omega
      have hlen := q.len_write _ hopen hchunk
      rw [length_wsFrameMask, List.length_take] at hlen
      have hpos : 0 < connWsMaskChunk := by decide
      obtain ⟨hcont, hclosed⟩ := ih (q.write (wsFrameMask key pos (payload.take connWsMaskChunk))).1
        ((pos + (payload.take connWsMaskChunk).length) % 4) (payload.drop connWsMaskChunk)
        (by rw [List.length_drop]; omega) (by rw [ByteQueue.closed_write, hopen])
        (by
          unfold ByteQueue.freeSpace at hfit ⊢
          rw [ByteQueue.cap_write, hlen, List.length_drop]
          omega)
      refine ⟨?_, hclosed⟩
      rw [hcont, wsFrameMask_mod, ByteQueue.contents_write _ _ hopen hchunk, List.append_assoc,
        ← wsFrameMask_append, List.take_append_drop]

/-- The header in front of a data frame makes it an envelope's length. -/
theorem length_wsDataHeader_drawKey (w : ConnWorld) (n : Nat) (hn : n ≤ connMaxFrameLen)
    (hws : w.conn.framing ≠ .tlsRecord) :
    (wsDataHeader w.drawKey n).length + n = w.conn.envelopeLen n := by
  have hkey : ∀ k ∈ w.drawKey, k.length = 4 := by
    intro k hk
    unfold drawKey at hk
    split at hk
    · rw [← Option.some.inj hk]
      exact (w.keys.headD ⟨[0, 0, 0, 0], rfl⟩).property
    · cases hk
  rw [length_wsDataHeader _ _ hn hkey, Conn.envelopeLen, drawKey]
  cases hfr : w.conn.framing with
  | tlsRecord => exact absurd hfr hws
  | wsClient => rfl
  | wsServer => rfl

/-- What `conn_ws_enqueue_frame` does to a data frame: append its envelope, or break for want of
    room. -/
theorem wsEnqueueFrame_cases (w : ConnWorld) (frame : List UInt8) (hmax : frame.length ≤ connMaxFrameLen)
    (hopen : w.conn.sendQ.closed = false) (hws : w.conn.framing ≠ .tlsRecord) :
    (w.conn.sendQ.freeSpace < w.conn.envelopeLen frame.length
        ∧ w.wsEnqueueFrame .binary frame = (w.dropKey.markBroken, false))
      ∨ (w.conn.envelopeLen frame.length ≤ w.conn.sendQ.freeSpace
        ∧ ∃ q, q.closed = false
          ∧ q.contents = w.conn.sendQ.contents
            ++ w.conn.framing.envelope (w.keys.headD ⟨[0, 0, 0, 0], rfl⟩) frame
          ∧ w.wsEnqueueFrame .binary frame
            = ({ w.dropKey with conn := { w.dropKey.conn with sendQ := q } }, true)) := by
  have henv := w.length_wsDataHeader_drawKey frame.length hmax hws
  rw [wsEnqueueFrame, wsDataHeader_spec _ _ hmax]
  dsimp only
  split
  · next hfree => exact Or.inl ⟨by omega, rfl⟩
  · next hfree =>
    have hfit : (wsDataHeader w.drawKey frame.length).length + frame.length
        ≤ w.conn.sendQ.freeSpace := Nat.not_lt.mp hfree
    have hhdr := w.conn.sendQ.contents_write (wsDataHeader w.drawKey frame.length) hopen (by omega)
    have hlen := w.conn.sendQ.len_write (wsDataHeader w.drawKey frame.length) hopen (by omega)
    have hopen' : (w.conn.sendQ.write (wsDataHeader w.drawKey frame.length)).1.closed = false := by
      rw [ByteQueue.closed_write, hopen]
    have hfit' : frame.length
        ≤ (w.conn.sendQ.write (wsDataHeader w.drawKey frame.length)).1.freeSpace := by
      unfold ByteQueue.freeSpace at hfit ⊢
      rw [ByteQueue.cap_write, hlen]
      omega
    refine Or.inr ⟨by omega, _, ?_, ?_, rfl⟩
    · cases hkey : w.drawKey with
      | none =>
        rw [hkey] at hopen'
        dsimp only
        rw [ByteQueue.closed_write, hopen']
      | some key =>
        rw [hkey] at hopen' hfit'
        exact (contents_enqueueMasked key _ _ 0 frame (Nat.le_refl _) hopen' hfit').2
    · cases hfr : w.conn.framing with
      | tlsRecord => exact absurd hfr hws
      | wsClient =>
        have hkey : w.drawKey = some (w.keys.headD ⟨[0, 0, 0, 0], rfl⟩).val := by
          rw [drawKey, if_pos hfr]
        rw [hkey] at hopen' hfit' hhdr
        rw [hkey]
        dsimp only
        rw [(contents_enqueueMasked _ _ _ 0 frame (Nat.le_refl _) hopen' hfit').1, hhdr,
          List.append_assoc]
        rfl
      | wsServer =>
        have hkey : w.drawKey = none := by rw [drawKey, if_neg (by rw [hfr]; decide)]
        rw [hkey] at hopen' hfit' hhdr
        rw [hkey]
        dsimp only
        rw [ByteQueue.contents_write _ _ hopen' hfit', hhdr, List.append_assoc]
        rfl

/-- What a send leaves alone. -/
structure SendFrame (w w' : ConnWorld) : Prop where
  socket : w.socket <+: w'.socket
  closed : w'.conn.sendQ.closed = false
  framing : w'.conn.framing = w.conn.framing
  maxFrameLen : w'.conn.maxFrameLen = w.conn.maxFrameLen

/-- What `cloak_conn_send` does: refuse a frame that is too long or has no room, and break, or append
    the frame's envelope and drain. -/
theorem send_reasons (w : ConnWorld) (frame : List UInt8)
    (hmax : w.conn.maxFrameLen ≤ connMaxFrameLen) (hopen : w.conn.sendQ.closed = false)
    (hlive : w.conn.broken = false) :
    w.SendFrame (w.send frame).1
      ∧ (((w.send frame).1.conn.broken = true ∧ (w.send frame).1.outBytes = w.outBytes
          ∧ (w.conn.maxFrameLen < frame.length
            ∨ w.conn.sendQ.freeSpace < w.conn.envelopeLen frame.length))
        ∨ (frame.length ≤ w.conn.maxFrameLen
          ∧ w.conn.envelopeLen frame.length ≤ w.conn.sendQ.freeSpace
          ∧ (w.send frame).1.outBytes = w.outBytes
            ++ w.conn.framing.envelope (w.keys.headD ⟨[0, 0, 0, 0], rfl⟩) frame)) := by
  have hdrop : w.dropKey.conn = w.conn ∧ w.dropKey.socket = w.socket := by
    unfold dropKey
    split <;> exact ⟨rfl, rfl⟩
  have hrefused : w.SendFrame w.markBroken := ⟨List.prefix_refl _, hopen, rfl, rfl⟩
  rw [send, if_neg (by rw [hlive]; decide)]
  split
  · next hlong => exact ⟨hrefused, Or.inl ⟨rfl, rfl, Or.inl hlong⟩⟩
  · next hlen =>
    split
    · next hws =>
      obtain ⟨hfull, heq⟩ | ⟨hfit, q, hq, hcont, heq⟩ :=
        w.wsEnqueueFrame_cases frame (by omega) hopen hws
      · rw [heq]
        refine ⟨⟨?_, ?_, ?_, ?_⟩, Or.inl ⟨rfl, ?_, Or.inr hfull⟩⟩
        · exact hdrop.2 ▸ List.prefix_refl _
        · simp only [markBroken, Conn.markBroken, hdrop.1, hopen]
        · simp only [markBroken, Conn.markBroken, hdrop.1]
        · simp only [markBroken, Conn.markBroken, hdrop.1]
        · simp only [outBytes, markBroken, Conn.markBroken, hdrop.1, hdrop.2]
      · rw [heq]
        have hd := tryDrainSend_drained
          { w.dropKey with conn := { w.dropKey.conn with sendQ := q } }
        refine ⟨⟨?_, ?_, ?_, ?_⟩, Or.inr ⟨by omega, hfit, ?_⟩⟩
        · exact List.IsPrefix.trans (hdrop.2 ▸ List.prefix_refl _) hd.socket
        · rw [hd.closed, hq]
        · rw [hd.framing]
          simp only [hdrop.1]
        · rw [hd.maxFrameLen]
          simp only [hdrop.1]
        · rw [hd.out]
          simp only [outBytes, hdrop.2]
          rw [hcont, List.append_assoc]
    · next hws =>
      have htls : w.conn.framing = .tlsRecord := not_not.mp hws
      have henv (n : Nat) : w.conn.envelopeLen n = connRecordHeaderLen + n := by
        rw [Conn.envelopeLen, htls, Framing.envelopeLen]
      split
      · next hlong =>
        rw [henv] at hlong
        exact ⟨hrefused, Or.inl ⟨rfl, rfl, Or.inl (by omega)⟩⟩
      · split
        · next hfull => exact ⟨hrefused, Or.inl ⟨rfl, rfl, Or.inr (henv _ ▸ hfull)⟩⟩
        · next hfree =>
          have hhlen : (tlsHeader frame.length).length = connRecordHeaderLen := by
            simp [tlsHeader, connRecordHeaderLen]
          have hhdr := w.conn.sendQ.contents_write (tlsHeader frame.length) hopen (by omega)
          have hwlen := w.conn.sendQ.len_write (tlsHeader frame.length) hopen (by omega)
          have hopen' : (w.conn.sendQ.write (tlsHeader frame.length)).1.closed = false := by
            rw [ByteQueue.closed_write, hopen]
          have hfit' : frame.length
              ≤ (w.conn.sendQ.write (tlsHeader frame.length)).1.freeSpace := by
            unfold ByteQueue.freeSpace at hfree ⊢
            rw [ByteQueue.cap_write, hwlen]
            omega
          have hd := tryDrainSend_drained
            { w with conn := { w.conn with
                sendQ := ((w.conn.sendQ.write (tlsHeader frame.length)).1.write frame).1 } }
          refine ⟨⟨hd.socket, ?_, hd.framing, hd.maxFrameLen⟩, Or.inr ⟨by omega, ?_, ?_⟩⟩
          · rw [hd.closed]
            dsimp only
            rw [ByteQueue.closed_write, hopen']
          · rw [henv]
            exact Nat.not_lt.mp hfree
          · rw [hd.out]
            simp only [outBytes]
            rw [ByteQueue.contents_write _ _ hopen' hfit', hhdr, htls, List.append_assoc,
              List.append_assoc]
            rfl

/-- What `cloak_conn_send` does: refuse and break, or append the frame's envelope, for which there is
    room, and drain. -/
theorem send_cases (w : ConnWorld) (frame : List UInt8) (hmax : w.conn.maxFrameLen ≤ connMaxFrameLen)
    (hopen : w.conn.sendQ.closed = false) (hlive : w.conn.broken = false) :
    w.SendFrame (w.send frame).1
      ∧ (((w.send frame).1.conn.broken = true ∧ (w.send frame).1.outBytes = w.outBytes)
        ∨ (frame.length ≤ w.conn.maxFrameLen
          ∧ w.conn.envelopeLen frame.length ≤ w.conn.sendQ.freeSpace
          ∧ (w.send frame).1.outBytes = w.outBytes
            ++ w.conn.framing.envelope (w.keys.headD ⟨[0, 0, 0, 0], rfl⟩) frame)) := by
  obtain ⟨hframe, ⟨hb, hout, _⟩ | hsent⟩ := w.send_reasons frame hmax hopen hlive
  · exact ⟨hframe, Or.inl ⟨hb, hout⟩⟩
  · exact ⟨hframe, Or.inr hsent⟩

end ConnWorld

/-! ## The receive side -/

/-- The callee never breaks the connection. -/
def OnEnvelope.Harmless (cb : OnEnvelope) : Prop :=
  ∀ (w : ConnWorld) (msg : List UInt8), (cb.call w msg).conn.broken = w.conn.broken

namespace ConnWorld

/-- A receiver between frames, expecting the envelopes of a sender with framing `fr`. -/
structure Expects (fr : Framing) (m : Nat) (w : ConnWorld) : Prop where
  framing : w.conn.framing = fr.peer
  maxFrameLen : w.conn.maxFrameLen = m
  wsMsg : w.conn.wsMsg = []
  wsMsgActive : w.conn.wsMsgActive = false
  isOpen : w.conn.recvAcc.closed = false

/-- What a turn of the dispatch loop makes of bytes that begin with the envelope of `frame`, once
    the envelope is whole: the frame is handed up, and the accumulator holds what follows. -/
structure Delivers (fr : Framing) (m : Nat) (w : ConnWorld) (cb : OnEnvelope) (key : MaskKey)
    (frame : List UInt8) (w' : ConnWorld) : Prop where
  expects : w'.Expects fr m
  delivered : w'.delivered = w.delivered ++ [frame]
  contents : w'.conn.recvAcc.contents
    = w.conn.recvAcc.contents.drop (fr.envelope key frame).length
  live : cb.Harmless → w'.conn.broken = w.conn.broken
  step : dispatchOnce cb w = (w', !w'.conn.broken)

variable {fr : Framing} {m : Nat} {w : ConnWorld} (cb : OnEnvelope) {key : MaskKey}
  {frame rest : List UInt8}

theorem handUp_spec (hex : w.Expects fr m) (frame : List UInt8) :
    ∃ w', handUp cb w frame = (w', !w'.conn.broken) ∧ w'.Expects fr m
      ∧ w'.delivered = w.delivered ++ [frame]
      ∧ w'.conn.recvAcc.contents = w.conn.recvAcc.contents
      ∧ (cb.Harmless → w'.conn.broken = w.conn.broken) := by
  have hsame := cb.sameRecv { w with delivered := w.delivered ++ [frame] } frame
  refine ⟨_, rfl, ⟨?_, ?_, ?_, ?_, ?_⟩, hsame.delivered, ?_, fun hcb => hcb _ _⟩
  · exact hsame.framing.trans hex.framing
  · exact hsame.maxFrameLen.trans hex.maxFrameLen
  · exact hsame.wsMsg.trans hex.wsMsg
  · exact hsame.wsMsgActive.trans hex.wsMsgActive
  · rw [hsame.recvAcc]
    exact hex.isOpen
  · rw [hsame.recvAcc]

/-- The record header, as far as it has arrived. -/
theorem peek_tlsHeader (ha : w.conn.recvAcc.contents <+: tlsHeader frame.length ++ frame ++ rest)
    (hlen : connRecordHeaderLen ≤ w.conn.recvAcc.contents.length) :
    w.conn.recvAcc.peek connRecordHeaderLen = tlsHeader frame.length := by
  have hhlen : (tlsHeader frame.length).length = connRecordHeaderLen := by
    simp [tlsHeader, connRecordHeaderLen]
  obtain ⟨tl, htl⟩ := ha
  have htake := congrArg (List.take connRecordHeaderLen) htl
  rw [List.take_append_of_le_length hlen, List.append_assoc, List.take_left' hhlen] at htake
  rw [ByteQueue.peek_eq, htake]

theorem beNat_tlsHeader (n : Nat) (hn : n ≤ connMaxFrameLen) :
    beNat (slice (tlsHeader n) 3 2) = n := by
  have hslice : slice (tlsHeader n) 3 2 = beBytes 2 n := by
    simp [slice, tlsHeader, List.take_of_length_le]
  rw [hslice, beNat_beBytes _ _ (by simp only [connMaxFrameLen] at hn; omega)]

theorem tlsDispatchOnce_waits (hlen : frame.length ≤ w.conn.maxFrameLen)
    (hmax : w.conn.maxFrameLen ≤ connMaxFrameLen)
    (ha : w.conn.recvAcc.contents <+: tlsHeader frame.length ++ frame ++ rest)
    (hshort : w.conn.recvAcc.contents.length < connRecordHeaderLen + frame.length) :
    tlsDispatchOnce cb w = (w, false) := by
  rw [tlsDispatchOnce]
  by_cases hhdr : w.conn.recvAcc.contents.length < connRecordHeaderLen
  · rw [if_pos]
    rw [ByteQueue.peek_eq, List.length_take]
    omega
  · have hpeek := peek_tlsHeader ha (by omega)
    rw [hpeek, if_neg (by simp [tlsHeader, connRecordHeaderLen])]
    dsimp only
    rw [beNat_tlsHeader _ (by omega), if_neg (by omega), if_pos]
    rw [← ByteQueue.length_contents]
    exact hshort

theorem tlsDispatchOnce_delivers (hex : w.Expects .tlsRecord m) (hlen : frame.length ≤ m)
    (hmax : m ≤ connMaxFrameLen)
    (ha : w.conn.recvAcc.contents <+: tlsHeader frame.length ++ frame ++ rest)
    (hwhole : connRecordHeaderLen + frame.length ≤ w.conn.recvAcc.contents.length) :
    ∃ w', Delivers .tlsRecord m w cb key frame w' := by
  have hm := hex.maxFrameLen
  have hhlen : (tlsHeader frame.length).length = connRecordHeaderLen := by
    simp [tlsHeader, connRecordHeaderLen]
  have hpeek := peek_tlsHeader ha (by omega)
  have hbody : (w.conn.recvAcc.read (connRecordHeaderLen + frame.length)).1.drop connRecordHeaderLen
      = frame := by
    obtain ⟨tl, htl⟩ := ha
    have htake := congrArg (List.take (connRecordHeaderLen + frame.length)) htl
    rw [List.take_append_of_le_length hwhole,
      List.take_left' (by rw [List.length_append, hhlen])] at htake
    rw [ByteQueue.read_fst, htake, List.drop_left' hhlen]
  have hstep : dispatchOnce cb w = handUp cb
      { w with conn := { w.conn with
          recvAcc := (w.conn.recvAcc.read (connRecordHeaderLen + frame.length)).2 } } frame := by
    rw [dispatchOnce, if_pos (show w.conn.framing = .tlsRecord from hex.framing), tlsDispatchOnce,
      hpeek, if_neg (by simp [tlsHeader, connRecordHeaderLen])]
    dsimp only
    rw [beNat_tlsHeader _ (by omega), if_neg (by omega),
      if_neg (by rw [← ByteQueue.length_contents]; omega), hbody]
  obtain ⟨w', hup, hex', hdel, hcont, hlive⟩ := handUp_spec cb
    (w := { w with conn := { w.conn with
        recvAcc := (w.conn.recvAcc.read (connRecordHeaderLen + frame.length)).2 } })
    ⟨hex.framing, hex.maxFrameLen, hex.wsMsg, hex.wsMsgActive,
      (ByteQueue.closed_read _ _).trans hex.isOpen⟩ frame
  refine ⟨w', hex', hdel, ?_, hlive, hstep.trans hup⟩
  rw [hcont]
  simp only [ByteQueue.contents_read]
  congr 1
  simp [Framing.envelope, hhlen]

/-- The WebSocket header and payload of a data frame, as the peer of a sender with framing `fr`
    sees them. -/
def wsKey (fr : Framing) (key : MaskKey) : Option (List UInt8) :=
  if fr = .wsClient then some key.val else none

theorem wsKey_length {k : List UInt8} (hk : k ∈ wsKey fr key) : k.length = 4 := by
  unfold wsKey at hk
  split at hk
  · exact Option.some.inj hk ▸ key.property
  · cases hk

theorem envelope_ws (hws : fr ≠ .tlsRecord) : fr.envelope key frame
    = wsDataHeader (wsKey fr key) frame.length
      ++ (if fr = .wsClient then wsFrameMask key.val 0 frame else frame) := by
  cases fr with
  | tlsRecord => exact absurd rfl hws
  | wsClient => rfl
  | wsServer => rfl

/-- What the parser makes of the front of the accumulator. -/
theorem parse_recvAcc (hws : fr ≠ .tlsRecord) (hmax : frame.length ≤ connMaxFrameLen)
    (ha : w.conn.recvAcc.contents <+: fr.envelope key frame ++ rest) :
    wsFrameParseHeader (w.conn.recvAcc.peek wsFrameMaxHeaderLen)
      = if w.conn.recvAcc.contents.length < (wsDataHeader (wsKey fr key) frame.length).length
        then .incomplete
        else .ok
          { opcode := .binary, fin := true, masked := (wsKey fr key).isSome,
            maskKey := (wsKey fr key).getD (List.replicate 4 0), payloadLen := frame.length,
            headerLen := (wsDataHeader (wsKey fr key) frame.length).length } := by
  have hspec := wsDataHeader_spec (wsKey fr key) frame.length hmax
  have hhdr : (wsDataHeader (wsKey fr key) frame.length).length ≤ wsFrameMaxHeaderLen := by
    have hlen := length_wsDataHeader (wsKey fr key) frame.length hmax (fun _ hk => wsKey_length hk)
    rw [connWsEnvelopeLen] at hlen
    have hmaxh : wsFrameMaxHeaderLen = 14 := rfl
    split at hlen <;> split at hlen <;> omega
  have hpre : w.conn.recvAcc.peek wsFrameMaxHeaderLen
      <+: wsDataHeader (wsKey fr key) frame.length
        ++ ((if fr = .wsClient then wsFrameMask key.val 0 frame else frame) ++ rest) := by
    rw [ByteQueue.peek_eq, ← List.append_assoc, ← envelope_ws hws]
    exact (List.take_prefix _ _).trans ha
  rw [parseHeader_of_writeHeader hspec (fun _ hk => wsKey_length hk) hpre, ByteQueue.peek_eq,
    List.length_take]
  by_cases h : w.conn.recvAcc.contents.length < (wsDataHeader (wsKey fr key) frame.length).length
  · rw [if_pos h, if_pos (by omega)]
  · rw [if_neg h, if_neg (by omega)]

/-- The peer of a client requires masked frames, the peer of a server unmasked ones. -/
theorem masked_eq (hws : fr ≠ .tlsRecord) :
    (wsKey fr key).isSome = (fr.peer == .wsServer) := by
  cases fr with
  | tlsRecord => exact absurd rfl hws
  | wsClient => rfl
  | wsServer => rfl

theorem length_envelope_ws (hws : fr ≠ .tlsRecord) : (fr.envelope key frame).length
    = (wsDataHeader (wsKey fr key) frame.length).length + frame.length := by
  rw [envelope_ws hws, List.length_append]
  congr 1
  split
  · exact length_wsFrameMask _ _ _
  · rfl

theorem wsDispatchOnce_waits (hws : fr ≠ .tlsRecord) (hex : w.Expects fr m)
    (hlen : frame.length ≤ m) (hmax : m ≤ connMaxFrameLen)
    (ha : w.conn.recvAcc.contents <+: fr.envelope key frame ++ rest)
    (hshort : w.conn.recvAcc.contents.length < (fr.envelope key frame).length) :
    wsDispatchOnce cb w = (w, false) := by
  have hm := hex.maxFrameLen
  rw [length_envelope_ws hws] at hshort
  rw [wsDispatchOnce, parse_recvAcc hws (by omega) ha]
  by_cases h : w.conn.recvAcc.contents.length < (wsDataHeader (wsKey fr key) frame.length).length
  · rw [if_pos h]
  · rw [if_neg h]
    dsimp only
    rw [if_neg (by rw [hex.framing, masked_eq hws]; simp), if_neg (by omega),
      if_pos (by rw [← ByteQueue.length_contents]; exact hshort)]

theorem wsDispatchOnce_delivers (hws : fr ≠ .tlsRecord) (hex : w.Expects fr m)
    (hlen : frame.length ≤ m) (hmax : m ≤ connMaxFrameLen)
    (ha : w.conn.recvAcc.contents <+: fr.envelope key frame ++ rest)
    (hwhole : (fr.envelope key frame).length ≤ w.conn.recvAcc.contents.length) :
    ∃ w', Delivers fr m w cb key frame w' := by
  have hm := hex.maxFrameLen
  have helen : (fr.envelope key frame).length
      = (wsDataHeader (wsKey fr key) frame.length).length + frame.length := length_envelope_ws hws
  have hfront : w.conn.recvAcc.contents.take (fr.envelope key frame).length
      = fr.envelope key frame := by
    obtain ⟨tl, htl⟩ := ha
    have htake := congrArg (List.take (fr.envelope key frame).length) htl
    rwa [List.take_append_of_le_length hwhole, List.take_left] at htake
  -- the payload bytes behind the header, as they came
  have hraw : (w.conn.recvAcc.contents.drop
        (wsDataHeader (wsKey fr key) frame.length).length).take frame.length
      = if fr = .wsClient then wsFrameMask key.val 0 frame else frame := by
    have hdrop := congrArg (List.drop (wsDataHeader (wsKey fr key) frame.length).length) hfront
    rw [List.drop_take, helen, Nat.add_sub_cancel_left] at hdrop
    rw [hdrop, envelope_ws hws, List.drop_left]
  have hpayload : (if (wsKey fr key).isSome then
        wsFrameMask ((wsKey fr key).getD (List.replicate 4 0)) 0
          (((w.conn.recvAcc.read (wsDataHeader (wsKey fr key) frame.length).length).2.read
            frame.length).1)
      else ((w.conn.recvAcc.read (wsDataHeader (wsKey fr key) frame.length).length).2.read
        frame.length).1) = frame := by
    rw [ByteQueue.read_fst, ByteQueue.contents_read, hraw]
    unfold wsKey
    by_cases hc : fr = .wsClient
    · simp only [if_pos hc, Option.isSome_some, if_true, Option.getD_some, wsFrameMask_wsFrameMask]
    · simp [if_neg hc]
  have hstep : dispatchOnce cb w = handUp cb
      { w with conn := { w.conn with
          recvAcc := ((w.conn.recvAcc.read (wsDataHeader (wsKey fr key) frame.length).length).2.read
            frame.length).2
          wsMsg := [], wsMsgActive := false } } frame := by
    have hpeer : w.conn.framing ≠ .tlsRecord := by
      rw [hex.framing]
      cases fr <;> first | exact absurd rfl hws | decide
    rw [dispatchOnce, if_neg hpeer, wsDispatchOnce, parse_recvAcc hws (by omega) ha,
      if_neg (by omega)]
    dsimp only
    rw [if_neg (by rw [hex.framing, masked_eq hws]; simp), if_neg (by omega),
      if_neg (by rw [← ByteQueue.length_contents]; omega), if_neg (by decide), wsData,
      if_neg (by rw [hex.wsMsgActive]; simp), hex.wsMsg]
    dsimp only [List.length_nil]
    rw [if_neg (by omega)]
    simp only [wsTakePayload, hpayload, hex.wsMsg, List.nil_append]
    rfl
  obtain ⟨w', hup, hex', hdel, hcont, hlive⟩ := handUp_spec cb
    (w := { w with conn := { w.conn with
        recvAcc := ((w.conn.recvAcc.read (wsDataHeader (wsKey fr key) frame.length).length).2.read
          frame.length).2
        wsMsg := [], wsMsgActive := false } })
    ⟨hex.framing, hex.maxFrameLen, rfl, rfl, by simp [hex.isOpen]⟩ frame
  refine ⟨w', hex', hdel, ?_, hlive, hstep.trans hup⟩
  rw [hcont, helen]
  simp only [ByteQueue.contents_read, List.drop_drop]

/-- Less than the next envelope has arrived: the loop stops and nothing changes. -/
theorem dispatchOnce_waits (hex : w.Expects fr m) (hlen : frame.length ≤ m)
    (hmax : m ≤ connMaxFrameLen) (ha : w.conn.recvAcc.contents <+: fr.envelope key frame ++ rest)
    (hshort : w.conn.recvAcc.contents.length < (fr.envelope key frame).length) :
    dispatchOnce cb w = (w, false) := by
  have hm := hex.maxFrameLen
  have hpeer := hex.framing
  by_cases hws : fr = .tlsRecord
  · subst hws
    rw [dispatchOnce, if_pos (show w.conn.framing = .tlsRecord from hpeer)]
    refine tlsDispatchOnce_waits cb (by omega) (by omega) ha ?_
    rw [Framing.length_envelope _ _ _ (by omega)] at hshort
    exact hshort
  · rw [dispatchOnce, if_neg (by
      rw [hpeer]
      cases fr <;> first | exact absurd rfl hws | decide)]
    exact wsDispatchOnce_waits cb hws hex hlen hmax ha hshort

/-- The next envelope is whole: its frame is handed up. -/
theorem dispatchOnce_delivers (hex : w.Expects fr m) (hlen : frame.length ≤ m)
    (hmax : m ≤ connMaxFrameLen) (ha : w.conn.recvAcc.contents <+: fr.envelope key frame ++ rest)
    (hwhole : (fr.envelope key frame).length ≤ w.conn.recvAcc.contents.length) :
    ∃ w', Delivers fr m w cb key frame w' := by
  by_cases hws : fr = .tlsRecord
  · subst hws
    refine tlsDispatchOnce_delivers cb hex hlen hmax ha ?_
    rw [Framing.length_envelope _ _ _ (by omega)] at hwhole
    exact hwhole
  · exact wsDispatchOnce_delivers cb hws hex hlen hmax ha hwhole

/-- The dispatch loop over the envelopes of `fs`, of which the accumulator holds a first part: it
    hands up every whole frame and stops in front of the first incomplete one. -/
structure LoopSpec (fr : Framing) (m : Nat) (cb : OnEnvelope) (fs : List SentFrame)
    (w w' : ConnWorld) : Prop where
  expects : w'.Expects fr m
  live : cb.Harmless → w'.conn.broken = w.conn.broken
  split : ∃ gs hs, fs = gs ++ hs ∧ w'.delivered = w.delivered ++ gs.map SentFrame.frame
    ∧ w.conn.recvAcc.contents = fr.envelopes gs ++ w'.conn.recvAcc.contents
    ∧ (w'.conn.broken = false → ∀ f ∈ hs.head?,
      w'.conn.recvAcc.contents.length < (fr.envelope f.key f.frame).length)

theorem dispatchLoop_spec (hmax : m ≤ connMaxFrameLen) (fuel : Nat) (w : ConnWorld)
    (fs : List SentFrame) (hfs : ∀ f ∈ fs, f.frame.length ≤ m) (hex : w.Expects fr m)
    (ha : w.conn.recvAcc.contents <+: fr.envelopes fs)
    (hfuel : w.conn.recvAcc.contents.length < fuel) :
    LoopSpec fr m cb fs w (dispatchLoop cb fuel w) := by
  induction fuel generalizing w fs with
  | zero => omega
  | succ fuel ih =>
    rcases fs with _ | ⟨f, fs⟩
    · -- nothing was sent beyond what is delivered, so nothing is in the accumulator
      have hnil : w.conn.recvAcc.contents = [] := List.prefix_nil.mp ha
      have hpos : 0 < (fr.envelope ⟨[0, 0, 0, 0], rfl⟩ []).length := by
        have hb := fr.envelopeLen_bounds 0
        rw [Framing.length_envelope _ _ _ (Nat.zero_le _), List.length_nil]
        omega
      have ha' : w.conn.recvAcc.contents <+: fr.envelope ⟨[0, 0, 0, 0], rfl⟩ [] ++ [] := by
        rw [hnil]
        exact List.nil_prefix
      have hwait : dispatchOnce cb w = (w, false) :=
        dispatchOnce_waits cb hex (Nat.zero_le _) hmax ha' (by rw [hnil]; exact hpos)
      rw [dispatchLoop, hwait]
      exact ⟨hex, fun _ => rfl, [], [], rfl, by simp, by simp [Framing.envelopes], by simp⟩
    · have hf := hfs f (List.mem_cons_self ..)
      rw [Framing.envelopes_cons] at ha
      have hmin := fr.envelopeLen_bounds f.frame.length
      have helen := fr.length_envelope f.key f.frame (by omega)
      by_cases hwhole : (fr.envelope f.key f.frame).length ≤ w.conn.recvAcc.contents.length
      · obtain ⟨w', hdel⟩ := dispatchOnce_delivers cb hex hf hmax ha hwhole
        have hsplit : w.conn.recvAcc.contents
            = fr.envelope f.key f.frame ++ w'.conn.recvAcc.contents := by
          obtain ⟨tl, htl⟩ := ha
          have htake := congrArg (List.take (fr.envelope f.key f.frame).length) htl
          rw [List.take_append_of_le_length hwhole, List.take_left] at htake
          rw [hdel.contents]
          conv_lhs => rw [← List.take_append_drop (fr.envelope f.key f.frame).length
            w.conn.recvAcc.contents, htake]
        rw [dispatchLoop, hdel.step]
        cases hb : w'.conn.broken with
        | true =>
          refine ⟨hdel.expects, hdel.live, [f], fs, rfl, hdel.delivered, ?_, ?_⟩
          · rw [hsplit]
            simp [Framing.envelopes]
          · intro hno
            simp [hb] at hno
        | false =>
          have hspec := ih w' fs (fun g hg => hfs g (List.mem_cons_of_mem _ hg)) hdel.expects
            (by
              rw [hsplit] at ha
              exact (List.prefix_append_right_inj _).mp ha)
            (by
              rw [hsplit, List.length_append] at hfuel
              omega)
          obtain ⟨gs, hs, hgs, hd, hcont, hsettled⟩ := hspec.split
          refine ⟨hspec.expects, fun hcb => (hspec.live hcb).trans (hdel.live hcb), f :: gs, hs,
            by rw [hgs]; rfl, ?_, ?_, hsettled⟩
          · simp only [Bool.not_false]
            rw [hd, hdel.delivered, List.append_assoc]
            rfl
          · simp only [Bool.not_false]
            rw [hsplit, hcont, Framing.envelopes_cons, List.append_assoc]
      · have hwait := dispatchOnce_waits cb hex hf hmax ha (by omega)
        rw [dispatchLoop, hwait]
        refine ⟨hex, fun _ => rfl, [], f :: fs, rfl, by simp, by simp [Framing.envelopes], ?_⟩
        intro _ g hg
        obtain rfl := Option.some.inj hg
        exact Nat.not_le.mp hwhole

end ConnWorld

/-! ## A sender and its peer -/

/-- Two connected connections; the receiver has taken the first `taken` bytes of what the sender's
    socket has accepted. -/
structure ConnLink where
  sender : ConnWorld
  receiver : ConnWorld
  taken : Nat

/-- What can happen: a frame is handed to the sender, its socket becomes writable, the receiver
    reads (granted `allowed` bytes by the token bucket, and given at most `size` by the kernel), or
    either end fails for a reason outside the byte stream. -/
inductive ConnLinkEvent where
  | send (frame : List UInt8) (key : MaskKey) (kernel : List SendRes)
  | writable (kernel : List SendRes)
  | recv (allowed size : Nat)
  | breakSender
  | breakReceiver

def ConnLinkEvent.sent? : ConnLinkEvent → Option SentFrame
  | .send frame key _ => some ⟨frame, key⟩
  | _ => none

/-- The frames handed to the sender, in call order. -/
def sentFrames (es : List ConnLinkEvent) : List SentFrame := es.filterMap ConnLinkEvent.sent?

/-- What the kernel gives the receiver for one `read`. -/
def ConnLink.inFlight (l : ConnLink) (allowed size : Nat) : List UInt8 :=
  (l.sender.socket.drop l.taken).take (min size (l.receiver.readWant allowed))

def connLinkStep (cb : OnEnvelope) (l : ConnLink) : ConnLinkEvent → ConnLink
  | .send frame key kernel =>
    { l with sender := (ConnWorld.send { l.sender with keys := [key], kernel := kernel } frame).1 }
  | .writable kernel =>
    if l.sender.conn.broken then l
    else { l with sender := ConnWorld.tryDrainSend { l.sender with kernel := kernel } }
  | .recv allowed size =>
    if l.receiver.conn.broken then l
    else if (l.inFlight allowed size).length = 0 then
      { l with receiver := ConnWorld.handleReadable cb [⟨allowed, true, .again⟩] l.receiver }
    else
      { l with
        receiver := ConnWorld.handleReadable cb [⟨allowed, true, .data (l.inFlight allowed size)⟩]
          l.receiver
        taken := l.taken + (l.inFlight allowed size).length }
  | .breakSender => { l with sender := l.sender.markBroken }
  | .breakReceiver => { l with receiver := l.receiver.markBroken }

/-- A connection nothing has happened to. -/
def ConnWorld.fresh (c : Conn) : ConnWorld := ⟨c, [], [], [], [], 0⟩

/-- The sender's half: what it has put out are the envelopes of the frames it accepted, which are
    all of them unless it is broken. -/
structure SendSide (fr : Framing) (m : Nat) (sent fs : List SentFrame) (w : ConnWorld) : Prop where
  accepted : fs <+: sent
  all : w.conn.broken = false → fs = sent
  fits : ∀ f ∈ fs, f.frame.length ≤ m
  out : w.outBytes = fr.envelopes fs
  isOpen : w.conn.sendQ.closed = false
  framing : w.conn.framing = fr
  maxFrameLen : w.conn.maxFrameLen = m

/-- The receiver's half: the bytes it has taken are the envelopes of the frames it has delivered and
    a part of the next one. -/
structure RecvSide (fr : Framing) (m : Nat) (fs : List SentFrame) (bytes : List UInt8)
    (w : ConnWorld) : Prop where
  expects : w.Expects fr m
  split : ∃ gs hs, fs = gs ++ hs ∧ w.delivered = gs.map SentFrame.frame
    ∧ bytes = fr.envelopes gs ++ w.conn.recvAcc.contents
    ∧ (w.conn.broken = false → ∀ f ∈ hs.head?,
      w.conn.recvAcc.contents.length < (fr.envelope f.key f.frame).length)

structure ConnLinkInv (fr : Framing) (m : Nat) (cb : OnEnvelope) (es : List ConnLinkEvent)
    (l : ConnLink) : Prop where
  halves : ∃ fs, SendSide fr m (sentFrames es) fs l.sender
    ∧ l.taken ≤ l.sender.socket.length
    ∧ RecvSide fr m fs (l.sender.socket.take l.taken) l.receiver
  live : cb.Harmless → (∀ e ∈ es, e ≠ .breakReceiver) → l.receiver.conn.broken = false

theorem SendSide.socket_isPrefix {fr : Framing} {m : Nat} {sent fs : List SentFrame} {w : ConnWorld}
    (h : SendSide fr m sent fs w) : w.socket <+: fr.envelopes fs := by
  rw [← h.out]
  exact List.prefix_append _ _

/-- More bytes on the socket change nothing behind the receiver's position. -/
theorem take_of_isPrefix {α : Type} {xs ys : List α} {n : Nat} (h : xs <+: ys)
    (hn : n ≤ xs.length) : ys.take n = xs.take n := by
  obtain ⟨zs, rfl⟩ := h
  exact List.take_append_of_le_length hn

/-- Another accepted frame joins those the receiver still waits for. -/
theorem RecvSide.append {fr : Framing} {m : Nat} {fs : List SentFrame} {bytes : List UInt8}
    {w : ConnWorld} (h : RecvSide fr m fs bytes w) (hbytes : bytes <+: fr.envelopes fs)
    (f : SentFrame) (hf : f.frame.length ≤ connMaxFrameLen) : RecvSide fr m (fs ++ [f]) bytes w := by
  obtain ⟨gs, hs, rfl, hdel, rfl, hsettled⟩ := h.split
  refine ⟨h.expects, gs, hs ++ [f], List.append_assoc _ _ _, hdel, rfl, ?_⟩
  intro hlive g hg
  rcases hs with _ | ⟨g', hs⟩
  · -- everything sent so far is delivered, so the accumulator is empty
    obtain rfl := Option.some.inj hg
    rw [List.append_nil] at hbytes
    have hlen := hbytes.length_le
    rw [List.length_append] at hlen
    have hb := fr.envelopeLen_bounds f.frame.length
    rw [fr.length_envelope f.key f.frame hf]
    omega
  · exact hsettled hlive g hg

/-- One read of the receiver. -/
theorem RecvSide.recv {fr : Framing} {m : Nat} (cb : OnEnvelope) (hmax : m ≤ connMaxFrameLen)
    {fs : List SentFrame} (hfs : ∀ f ∈ fs, f.frame.length ≤ m) {bytes bs : List UInt8} {w : ConnWorld}
    (h : RecvSide fr m fs bytes w) (hbytes : bytes ++ bs <+: fr.envelopes fs)
    {allowed : Nat} (hwant : bs.length ≤ w.readWant allowed) (hne : bs.length ≠ 0) :
    RecvSide fr m fs (bytes ++ bs) (ConnWorld.handleReadable cb [⟨allowed, true, .data bs⟩] w)
      ∧ (cb.Harmless → (ConnWorld.handleReadable cb [⟨allowed, true, .data bs⟩] w).conn.broken
        = w.conn.broken) := by
  obtain ⟨gs, hs, rfl, hdel, rfl, _⟩ := h.split
  unfold ConnWorld.readWant at hwant
  have hfit : bs.length ≤ w.conn.recvAcc.freeSpace := by omega
  have hread : ConnWorld.handleReadable cb [⟨allowed, true, .data bs⟩] w = ConnWorld.recvBytes cb w bs := by
    have htake : bs.take (w.readWant allowed) = bs :=
      List.take_of_length_le (by unfold ConnWorld.readWant; omega)
    rw [ConnWorld.handleReadable, if_neg (by omega), if_neg (by dsimp only; omega)]
    dsimp only
    rw [htake, if_neg hne]
    split <;> rfl
  have hcont := w.conn.recvAcc.contents_write bs h.expects.isOpen hfit
  have hspec := ConnWorld.dispatchLoop_spec cb hmax
    ((w.conn.recvAcc.write bs).1.len + 1)
    { w with conn := { w.conn with recvAcc := (w.conn.recvAcc.write bs).1 } } hs
    (fun f hf => hfs f (List.mem_append_right _ hf))
    ⟨h.expects.framing, h.expects.maxFrameLen, h.expects.wsMsg, h.expects.wsMsgActive,
      (ByteQueue.closed_write _ _).trans h.expects.isOpen⟩
    (by
      dsimp only
      rw [hcont]
      rw [List.append_assoc, Framing.envelopes_append] at hbytes
      exact (List.prefix_append_right_inj _).mp hbytes)
    (by
      dsimp only
      rw [ByteQueue.length_contents]
      omega)
  rw [hread]
  obtain ⟨gs', hs', rfl, hdel', hsplit, hsettled⟩ := hspec.split
  dsimp only at hsplit
  rw [hcont] at hsplit
  refine ⟨⟨hspec.expects, gs ++ gs', hs', (List.append_assoc _ _ _).symm, ?_, ?_, hsettled⟩,
    hspec.live⟩
  · rw [ConnWorld.recvBytes, ConnWorld.extractAndDispatch, hdel']
    dsimp only
    rw [hdel, List.map_append]
  · rw [List.append_assoc, hsplit, Framing.envelopes_append, List.append_assoc]
    rfl

theorem sentFrames_concat_send (es : List ConnLinkEvent) (frame : List UInt8) (key : MaskKey)
    (kernel : List SendRes) :
    sentFrames (es ++ [.send frame key kernel]) = sentFrames es ++ [⟨frame, key⟩] := by
  simp [sentFrames, ConnLinkEvent.sent?]

theorem sentFrames_concat_other (es : List ConnLinkEvent) {e : ConnLinkEvent}
    (he : e.sent? = none) : sentFrames (es ++ [e]) = sentFrames es := by
  simp [sentFrames, he]

/-- A paused read changes the interest mask and the timer only. -/
theorem RecvSide.again {fr : Framing} {m : Nat} (cb : OnEnvelope) {fs : List SentFrame}
    {bytes : List UInt8} {w : ConnWorld} (h : RecvSide fr m fs bytes w) (allowed : Nat) :
    RecvSide fr m fs bytes (ConnWorld.handleReadable cb [⟨allowed, true, .again⟩] w)
      ∧ (ConnWorld.handleReadable cb [⟨allowed, true, .again⟩] w).conn.broken = w.conn.broken := by
  rw [ConnWorld.handleReadable]
  split
  · exact ⟨h, rfl⟩
  · split
    · rw [ConnWorld.pauseReadForRate, if_neg (by simp), Conn.syncInterest]
      split
      · exact ⟨⟨⟨h.expects.framing, h.expects.maxFrameLen, h.expects.wsMsg, h.expects.wsMsgActive,
          h.expects.isOpen⟩, h.split⟩, rfl⟩
      · exact ⟨⟨⟨h.expects.framing, h.expects.maxFrameLen, h.expects.wsMsg, h.expects.wsMsgActive,
          h.expects.isOpen⟩, h.split⟩, rfl⟩
    · exact ⟨h, rfl⟩

theorem ConnLinkInv.send {fr : Framing} {m : Nat} {cb : OnEnvelope} (hmax : m ≤ connMaxFrameLen)
    {es : List ConnLinkEvent} {l : ConnLink} (h : ConnLinkInv fr m cb es l) (frame : List UInt8)
    (key : MaskKey) (kernel : List SendRes) :
    ConnLinkInv fr m cb (es ++ [.send frame key kernel])
      (connLinkStep cb l (.send frame key kernel)) := by
  obtain ⟨fs, hsend, htaken, hrecv⟩ := h.halves
  have hm := hsend.maxFrameLen
  refine ⟨?_, ?_⟩
  · rw [sentFrames_concat_send]
    by_cases hb : l.sender.conn.broken = true
    · -- a broken connection refuses
      have hsame : (ConnWorld.send { l.sender with keys := [key], kernel := kernel } frame).1
          = { l.sender with keys := [key], kernel := kernel } := by
        rw [ConnWorld.send, if_pos hb]
      refine ⟨fs, ?_, ?_, ?_⟩
      · simp only [connLinkStep, hsame]
        refine ⟨hsend.accepted.trans (List.prefix_append _ _), ?_, hsend.fits, hsend.out,
          hsend.isOpen, hsend.framing, hsend.maxFrameLen⟩
        intro hno
        rw [hb] at hno
        cases hno
      · simp only [connLinkStep, hsame]
        exact htaken
      · simp only [connLinkStep, hsame]
        exact hrecv
    · have hlive := Bool.eq_false_iff.mpr hb
      have hfs := hsend.all hlive
      obtain ⟨hframe, hcases⟩ := ConnWorld.send_cases
        { l.sender with keys := [key], kernel := kernel } frame (by dsimp only; omega)
        hsend.isOpen hlive
      generalize hw' : (ConnWorld.send { l.sender with keys := [key], kernel := kernel } frame).1 = w'
        at hframe hcases
      have hstep : connLinkStep cb l (.send frame key kernel) = { l with sender := w' } := by
        simp only [connLinkStep, hw']
      rw [hstep]
      have hsock := hframe.socket
      have htake := take_of_isPrefix hsock htaken
      rcases hcases with ⟨hbroken, hout⟩ | ⟨hlen, _, hout⟩
      · refine ⟨fs, ⟨hsend.accepted.trans (List.prefix_append _ _), ?_, hsend.fits, ?_,
          hframe.closed, hframe.framing.trans hsend.framing, hframe.maxFrameLen.trans hm⟩, ?_, ?_⟩
        · intro hno
          rw [hbroken] at hno
          cases hno
        · exact hout.trans hsend.out
        · exact Nat.le_trans htaken hsock.length_le
        · dsimp only
          rw [htake]
          exact hrecv
      · refine ⟨fs ++ [⟨frame, key⟩], ⟨?_, ?_, ?_, ?_, hframe.closed,
          hframe.framing.trans hsend.framing, hframe.maxFrameLen.trans hm⟩, ?_, ?_⟩
        · exact hfs ▸ List.prefix_refl _
        · intro _
          rw [hfs]
        · intro f hf
          obtain hf | hf := List.mem_append.mp hf
          · exact hsend.fits f hf
          · rw [List.mem_singleton.mp hf]
            exact Nat.le_trans hlen (Nat.le_of_eq hm)
        · have hold : ConnWorld.outBytes { l.sender with keys := [key], kernel := kernel }
              = fr.envelopes fs := hsend.out
          rw [hout, hold, Framing.envelopes_append, hsend.framing]
          simp [Framing.envelopes]
        · exact Nat.le_trans htaken hsock.length_le
        · dsimp only
          rw [htake]
          refine hrecv.append ?_ _ (Nat.le_trans (Nat.le_trans hlen (Nat.le_of_eq hm)) hmax)
          exact (List.take_prefix _ _).trans hsend.socket_isPrefix
  · intro hcb hno
    exact h.live hcb fun e he => hno e (List.mem_append_left _ he)

theorem ConnLinkInv.step {fr : Framing} {m : Nat} {cb : OnEnvelope} (hmax : m ≤ connMaxFrameLen)
    (es : List ConnLinkEvent) (l : ConnLink) (e : ConnLinkEvent) (h : ConnLinkInv fr m cb es l) :
    ConnLinkInv fr m cb (es ++ [e]) (connLinkStep cb l e) := by
  obtain ⟨fs, hsend, htaken, hrecv⟩ := h.halves
  have hlive : cb.Harmless → (∀ e' ∈ es ++ [e], e' ≠ .breakReceiver) →
      l.receiver.conn.broken = false :=
    fun hcb hno => h.live hcb fun e' he' => hno e' (List.mem_append_left _ he')
  cases e with
  | send frame key kernel => exact h.send hmax frame key kernel
  | writable kernel =>
    have hsent := sentFrames_concat_other es (e := .writable kernel) rfl
    by_cases hb : l.sender.conn.broken = true
    · refine ⟨⟨fs, ?_⟩, ?_⟩ <;> simp only [connLinkStep, if_pos hb]
      · rw [hsent]
        exact ⟨hsend, htaken, hrecv⟩
      · exact hlive
    · refine ⟨⟨fs, ?_⟩, ?_⟩ <;> simp only [connLinkStep, if_neg hb]
      · rw [hsent]
        have hd := ConnWorld.tryDrainSend_drained { l.sender with kernel := kernel }
        refine ⟨⟨hsend.accepted, fun _ => hsend.all (Bool.eq_false_iff.mpr hb), hsend.fits,
          hd.out.trans hsend.out, hd.closed.trans hsend.isOpen, hd.framing.trans hsend.framing,
          hd.maxFrameLen.trans hsend.maxFrameLen⟩, Nat.le_trans htaken hd.socket.length_le, ?_⟩
        rw [take_of_isPrefix hd.socket htaken]
        exact hrecv
      · exact hlive
  | recv allowed size =>
    have hsent := sentFrames_concat_other es (e := .recv allowed size) rfl
    by_cases hb : l.receiver.conn.broken = true
    · refine ⟨⟨fs, ?_⟩, ?_⟩ <;> simp only [connLinkStep, if_pos hb]
      · rw [hsent]
        exact ⟨hsend, htaken, hrecv⟩
      · exact hlive
    · by_cases hz : (l.inFlight allowed size).length = 0
      · obtain ⟨hagain, hbroken⟩ := hrecv.again cb allowed
        refine ⟨⟨fs, ?_⟩, ?_⟩ <;> simp only [connLinkStep, if_neg hb, if_pos hz]
        · rw [hsent]
          exact ⟨hsend, htaken, hagain⟩
        · rw [hbroken]
          exact hlive
      · have hlen : (l.inFlight allowed size).length ≤ l.receiver.readWant allowed := by
          rw [ConnLink.inFlight, List.length_take]
          omega
        have hend : l.taken + (l.inFlight allowed size).length ≤ l.sender.socket.length := by
          rw [ConnLink.inFlight, List.length_take, List.length_drop]
          omega
        have htake : l.sender.socket.take (l.taken + (l.inFlight allowed size).length)
            = l.sender.socket.take l.taken ++ l.inFlight allowed size := by
          rw [List.take_add]
          congr 1
          rw [ConnLink.inFlight, List.length_take, List.length_drop, List.take_eq_take_iff,
            List.length_drop]
          omega
        obtain ⟨hread, hbroken⟩ := hrecv.recv cb hmax hsend.fits
          (by
            rw [← htake]
            exact (List.take_prefix _ _).trans hsend.socket_isPrefix) hlen hz
        refine ⟨⟨fs, ?_⟩, ?_⟩ <;> simp only [connLinkStep, if_neg hb, if_neg hz]
        · rw [hsent]
          refine ⟨hsend, hend, ?_⟩
          rw [htake]
          exact hread
        · intro hcb hno
          rw [hbroken hcb]
          exact hlive hcb hno
  | breakSender =>
    have hsent := sentFrames_concat_other es (e := .breakSender) rfl
    refine ⟨⟨fs, ?_⟩, hlive⟩
    rw [hsent]
    refine ⟨⟨hsend.accepted, ?_, hsend.fits, hsend.out, hsend.isOpen, hsend.framing,
      hsend.maxFrameLen⟩, htaken, hrecv⟩
    intro hno
    cases hno
  | breakReceiver =>
    have hsent := sentFrames_concat_other es (e := .breakReceiver) rfl
    refine ⟨⟨fs, ?_⟩, ?_⟩
    · rw [hsent]
      refine ⟨hsend, htaken, ?_⟩
      obtain ⟨gs, hs, hgs, hdel, hbytes, _⟩ := hrecv.split
      refine ⟨⟨hrecv.expects.framing, hrecv.expects.maxFrameLen, hrecv.expects.wsMsg,
        hrecv.expects.wsMsgActive, hrecv.expects.isOpen⟩, gs, hs, hgs, hdel, hbytes, ?_⟩
      intro hno
      cases hno
    · intro _ hno
      exact absurd rfl (hno .breakReceiver (List.mem_append_right _ (List.mem_singleton_self _)))

theorem Conn.init_spec {fr : Framing} {m cap : Nat} {c : Conn} (h : Conn.init fr m cap = some c) :
    m ≤ connMaxFrameLen ∧ c.framing = fr ∧ c.maxFrameLen = m ∧ c.recvAcc.contents = []
      ∧ c.recvAcc.closed = false ∧ c.recvAcc.cap = 2 * fr.recvEnvelopeLen m
      ∧ c.sendQ.contents = [] ∧ c.sendQ.closed = false ∧ c.sendQ.cap = cap
      ∧ c.wsMsg = [] ∧ c.wsMsgActive = false ∧ c.broken = false := by
  unfold Conn.init at h
  split at h
  · cases h
  · split at h
    · next racc sq hracc hsq =>
      obtain rfl := Option.some.inj h
      obtain ⟨hr1, hr2, hr3⟩ := ByteQueue.init_spec hracc
      obtain ⟨hs1, hs2, hs3⟩ := ByteQueue.init_spec hsq
      exact ⟨by omega, rfl, rfl, hr1, hr2, hr3, hs1, hs2, hs3, rfl, rfl, rfl⟩
    · cases h

theorem connLinkInv_run {fr : Framing} {m caps capr : Nat} {s r : Conn}
    (hs : Conn.init fr m caps = some s) (hr : Conn.init fr.peer m capr = some r) (cb : OnEnvelope)
    (es : List ConnLinkEvent) :
    ConnLinkInv fr m cb es (run (connLinkStep cb) ⟨ConnWorld.fresh s, ConnWorld.fresh r, 0⟩ es) := by
  obtain ⟨hmax, hsf, hsm, _, _, _, hsq, hso, _, _, _, _⟩ := Conn.init_spec hs
  obtain ⟨_, hrf, hrm, hracc, hro, _, _, _, _, hmsg, hact, hrb⟩ := Conn.init_spec hr
  refine run_history ?_ (ConnLinkInv.step hmax) es
  refine ⟨⟨[], ⟨List.nil_prefix, fun _ => rfl, by simp, ?_, hso, hsf, hsm⟩, Nat.zero_le _, ?_⟩,
    fun _ _ => hrb⟩
  · simp [ConnWorld.outBytes, ConnWorld.fresh, hsq, Framing.envelopes]
  · refine ⟨⟨hrf, hrm, hmsg, hact, hro⟩, [], [], rfl, rfl, ?_, by simp⟩
    simp [ConnWorld.fresh, hracc, Framing.envelopes]

/-- **The framing round trip.** For a sender of any framing and a peer of the matching one, whatever
    frames are handed over, however the socket takes the bytes and the peer reads them: the bytes on
    the socket are a first part of the frames' envelopes in call order; the peer's callback has
    received the first frames of those sent, unaltered and in order; it has received all of them
    once everything queued has been written and read with neither end broken; and the bytes
    themselves never break the receiver. -/
theorem conn_framing_round_trip (fr : Framing) (m caps capr : Nat) (s r : Conn)
    (hs : Conn.init fr m caps = some s) (hr : Conn.init fr.peer m capr = some r) (cb : OnEnvelope)
    (es : List ConnLinkEvent) (l : ConnLink)
    (hl : l = run (connLinkStep cb) ⟨ConnWorld.fresh s, ConnWorld.fresh r, 0⟩ es) :
    l.sender.socket <+: fr.envelopes (sentFrames es)
      ∧ l.receiver.delivered <+: (sentFrames es).map SentFrame.frame
      ∧ (l.sender.conn.broken = false → l.sender.conn.sendQ.len = 0 →
        l.taken = l.sender.socket.length → l.receiver.conn.broken = false →
        l.receiver.delivered = (sentFrames es).map SentFrame.frame)
      ∧ (cb.Harmless → (∀ e ∈ es, e ≠ .breakReceiver) → l.receiver.conn.broken = false) := by
  have hinv := connLinkInv_run hs hr cb es
  rw [← hl] at hinv
  obtain ⟨fs, hsend, htaken, hrecv⟩ := hinv.halves
  obtain ⟨gs, hs', hgs, hdel, hbytes, hsettled⟩ := hrecv.split
  refine ⟨?_, ?_, ?_, hinv.live⟩
  · obtain ⟨rest, hrest⟩ := hsend.accepted
    rw [← hrest, Framing.envelopes_append]
    exact hsend.socket_isPrefix.trans (List.prefix_append _ _)
  · obtain ⟨rest, hrest⟩ := hsend.accepted
    rw [hdel, ← hrest, hgs, List.map_append, List.map_append, List.append_assoc]
    exact List.prefix_append _ _
  · intro hlive hempty hall hrlive
    have hout := hsend.out
    rw [ConnWorld.outBytes, (l.sender.conn.sendQ.contents_eq_nil_iff).mpr hempty, List.append_nil]
      at hout
    rw [hall, List.take_length, hout, hgs, Framing.envelopes_append,
      List.append_right_inj] at hbytes
    rcases hs' with _ | ⟨f, hs'⟩
    · rw [hdel, ← hsend.all hlive, hgs, List.append_nil]
    · -- the next envelope would be whole in the accumulator
      have hlt := hsettled hrlive f rfl
      rw [← hbytes, Framing.envelopes_cons, List.length_append] at hlt
      omega

/-- A callback that does nothing. -/
def OnEnvelope.ignore : OnEnvelope where
  call w _ := w
  sameRecv _ _ := ⟨rfl, rfl, rfl, rfl, rfl, rfl⟩

/-- One masked frame, written in two pieces and read in three. -/
theorem conn_framing_round_trip_masked : ∃ s r, Conn.init .wsClient 4 64 = some s
    ∧ Conn.init .wsServer 4 64 = some r
    ∧ (run (connLinkStep .ignore) ⟨ConnWorld.fresh s, ConnWorld.fresh r, 0⟩
        [.send [1, 2, 3] ⟨[5, 6, 7, 8], rfl⟩ [.wrote 4], .recv 9 1, .writable [.wrote 5], .recv 9 2,
          .recv 9 9]).receiver.delivered = [[1, 2, 3]] := by
  refine ⟨_, _, rfl, rfl, ?_⟩
  exact (conn_framing_round_trip .wsClient 4 64 64 _ _ rfl rfl .ignore
    [.send [1, 2, 3] ⟨[5, 6, 7, 8], rfl⟩ [.wrote 4], .recv 9 1, .writable [.wrote 5], .recv 9 2,
      .recv 9 9] _ rfl).2.2.1 (by decide +kernel) (by decide +kernel) (by decide +kernel)
    (by decide +kernel)

end Cloak
