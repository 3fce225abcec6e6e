import Cloak.Lib.Run
import Cloak.Mux.ConnSteps
import Cloak.Mux.SessionIds

set_option autoImplicit false

/-! # The receive side of a connection

One turn of a dispatch loop looks at the accumulated bytes and at the message under assembly, and
decides: wait for more, refuse, or take a frame off the front and act on it. `ConnWorld.turn` is that
decision as a function of the receive side alone, and `dispatchOnce_eq` says that a turn of the loop
is the decision carried out. Everything about receiving is proved from this equation.

The first thing it gives is that receiving cannot get stuck. A dispatch loop that has run its course
leaves a broken connection, or one whose accumulator holds less than a header and a largest payload
(`turn_wait_lt`); the accumulator is twice as large as an envelope, so there is room for the next
read (`recv_never_full`). -/

namespace Cloak

open Lib

/-- A WebSocket frame, unmasked. -/
structure WsFrame where
  opcode : WsOpcode
  fin : Bool
  payload : List UInt8
deriving DecidableEq, Repr

/-- The message under assembly. -/
structure Assembly where
  msg : List UInt8
  active : Bool
deriving DecidableEq, Repr

/-- What a connection does about a frame it has taken out of the accumulator. -/
inductive RecvAct where
  | handUp (msg : List UInt8)
  | nothing
  | pong (ctl : List UInt8)
  | close (ctl : List UInt8)
deriving DecidableEq, Repr

/-- The envelopes an act hands up. -/
def RecvAct.messages : RecvAct → List (List UInt8)
  | .handUp msg => [msg]
  | .nothing => []
  | .pong _ => []
  | .close _ => []

/-- What one turn of a dispatch loop decides. -/
inductive RecvTurn where
  | wait
  | refuse
  | take (n : Nat) (st : Assembly) (act : RecvAct)
deriving DecidableEq, Repr

/-- What the accumulated bytes begin with: part of a frame, no acceptable frame, or a frame of `n`
    bytes. -/
inductive FrameCut where
  | wait
  | refuse
  | frame (n : Nat) (f : WsFrame)
deriving DecidableEq, Repr

/-- The payload behind a header, unmasked. -/
def WsFrameHeader.payload (h : WsFrameHeader) (bs : List UInt8) : List UInt8 :=
  if h.masked then wsFrameMask h.maskKey 0 (slice bs h.headerLen h.payloadLen)
  else slice bs h.headerLen h.payloadLen

/-- The checks on a header and on the length of the frame behind it. -/
def wsFrameCut (masked : Bool) (maxFrameLen : Nat) (bs : List UInt8) : FrameCut :=
  match wsFrameParseHeader (bs.take wsFrameMaxHeaderLen) with
  | .incomplete => .wait
  | .malformed => .refuse
  | .ok h =>
    if h.masked ≠ masked then .refuse
    else if maxFrameLen < h.payloadLen then .refuse
    else if bs.length < h.headerLen + h.payloadLen then .wait
    else .frame (h.headerLen + h.payloadLen) ⟨h.opcode, h.fin, h.payload bs⟩

namespace Assembly

/-- A control frame always passes. A data frame continues a message exactly if there is one, and the
    message stays within the limit. -/
def Accepts (st : Assembly) (maxFrameLen : Nat) (f : WsFrame) : Prop :=
  f.opcode.isControl = true
    ∨ (f.opcode == .continuation) = st.active ∧ f.payload.length ≤ maxFrameLen - st.msg.length

instance (st : Assembly) (maxFrameLen : Nat) (f : WsFrame) : Decidable (st.Accepts maxFrameLen f) :=
  inferInstanceAs (Decidable (_ ∨ _ ∧ _))

/-- The message under assembly after an accepted frame. -/
def next (st : Assembly) (f : WsFrame) : Assembly :=
  if f.opcode.isControl then st else if f.fin then ⟨[], false⟩ else ⟨st.msg ++ f.payload, true⟩

/-- What an accepted frame asks for. -/
def act (st : Assembly) (f : WsFrame) : RecvAct :=
  if f.opcode.isControl then
    if f.opcode = .ping then .pong f.payload
    else if f.opcode = .pong then .nothing
    else .close f.payload
  else if f.fin then .handUp (st.msg ++ f.payload) else .nothing

end Assembly

/-- The decision of a turn on a WebSocket connection. -/
def wsTurn (masked : Bool) (maxFrameLen : Nat) (st : Assembly) (bs : List UInt8) : RecvTurn :=
  match wsFrameCut masked maxFrameLen bs with
  | .wait => .wait
  | .refuse => .refuse
  | .frame n f => if st.Accepts maxFrameLen f then .take n (st.next f) (st.act f) else .refuse

/-- The decision of a turn on a TLS connection. -/
def tlsTurn (maxFrameLen : Nat) (st : Assembly) (bs : List UInt8) : RecvTurn :=
  if bs.length < connRecordHeaderLen then .wait
  else if maxFrameLen < beNat (slice bs 3 2) then .refuse
  else if bs.length < connRecordHeaderLen + beNat (slice bs 3 2) then .wait
  else .take (connRecordHeaderLen + beNat (slice bs 3 2)) st
    (.handUp (slice bs connRecordHeaderLen (beNat (slice bs 3 2))))

/-! ## Bounds on a frame -/

theorem length_payload (h : WsFrameHeader) (bs : List UInt8)
    (hlen : h.headerLen + h.payloadLen ≤ bs.length) : (h.payload bs).length = h.payloadLen := by
  unfold WsFrameHeader.payload
  split
  · rw [length_wsFrameMask, length_slice _ _ _ hlen]
  · rw [length_slice _ _ _ hlen]

theorem wsFrameCut_wait_lt {masked : Bool} {m : Nat} {bs : List UInt8}
    (h : wsFrameCut masked m bs = .wait) : bs.length < wsFrameMaxHeaderLen + m := by
  unfold wsFrameCut at h
  split at h
  · next hparse =>
    have hlt := parseHeader_incomplete_lt hparse
    rw [List.length_take] at hlt
    omega
  · cases h
  · next hdr hparse =>
    have hhdr := (parseHeader_ok_bounds hparse).2.1
    split at h
    · cases h
    · split at h
      · cases h
      · split at h
        · omega
        · cases h

theorem wsFrameCut_frame_bounds {masked : Bool} {m n : Nat} {bs : List UInt8} {f : WsFrame}
    (h : wsFrameCut masked m bs = .frame n f) :
    2 ≤ n ∧ n ≤ bs.length ∧ f.payload.length ≤ m := by
  unfold wsFrameCut at h
  split at h
  · cases h
  · cases h
  · next hdr hparse =>
    have hhdr := (parseHeader_ok_bounds hparse).1
    split at h
    · cases h
    · split at h
      · cases h
      · split at h
        · cases h
        · next hbig hwhole =>
          obtain ⟨rfl, rfl⟩ := FrameCut.frame.inj h
          have hpay := length_payload hdr bs (by omega)
          exact ⟨by omega, by omega, by dsimp only; omega⟩

theorem wsFrameCut_control_le {masked : Bool} {m n : Nat} {bs : List UInt8} {f : WsFrame}
    (h : wsFrameCut masked m bs = .frame n f) (hctl : f.opcode.isControl = true) :
    f.payload.length ≤ wsFrameMaxControlPayload := by
  unfold wsFrameCut at h
  split at h
  · cases h
  · cases h
  · next hdr hparse =>
    split at h
    · cases h
    · split at h
      · cases h
      · split at h
        · cases h
        · obtain ⟨rfl, rfl⟩ := FrameCut.frame.inj h
          dsimp only
          rw [length_payload hdr bs (by omega)]
          exact parseHeader_control_le hparse hctl

namespace ConnWorld

def assembly (w : ConnWorld) : Assembly := ⟨w.conn.wsMsg, w.conn.wsMsgActive⟩

/-- The decision of the next turn. -/
def turn (w : ConnWorld) : RecvTurn :=
  if w.conn.framing = .tlsRecord then tlsTurn w.conn.maxFrameLen w.assembly w.conn.recvAcc.contents
  else wsTurn (w.conn.framing == .wsServer) w.conn.maxFrameLen w.assembly w.conn.recvAcc.contents

/-- The connection without the first `n` accumulated bytes, and with the message under assembly
    `st`. -/
def cutOff (w : ConnWorld) (n : Nat) (st : Assembly) : ConnWorld :=
  { w with conn := { w.conn with
      recvAcc := (w.conn.recvAcc.read n).2, wsMsg := st.msg, wsMsgActive := st.active } }

/-- Carry out what a frame asks for, with whether the loop goes on. -/
def answer (cb : OnEnvelope) (w : ConnWorld) : RecvAct → ConnWorld × Bool
  | .handUp msg => handUp cb w msg
  | .nothing => (w, true)
  | .pong ctl =>
    match w.wsEnqueueFrame .pong ctl with
    | (w', false) => (w', false)
    | (w', true) => (w'.tryDrainSend, !w'.tryDrainSend.conn.broken)
  | .close ctl =>
    (ConnWorld.markBroken
      (if (w.wsEnqueueFrame .close ctl).1.conn.broken then (w.wsEnqueueFrame .close ctl).1
       else (w.wsEnqueueFrame .close ctl).1.tryDrainSend), false)

/-! ## A turn is a decision carried out -/

theorem tlsDispatchOnce_eq (cb : OnEnvelope) (w : ConnWorld) :
    tlsDispatchOnce cb w
      = match tlsTurn w.conn.maxFrameLen w.assembly w.conn.recvAcc.contents with
        | .wait => (w, false)
        | .refuse => (w.markBroken, false)
        | .take n st act => answer cb (w.cutOff n st) act := by
  unfold tlsDispatchOnce tlsTurn
  have hpeek : (w.conn.recvAcc.peek connRecordHeaderLen).length < connRecordHeaderLen
      ↔ w.conn.recvAcc.contents.length < connRecordHeaderLen := by
    rw [ByteQueue.peek_eq, List.length_take]
    omega
  have hslice : slice (w.conn.recvAcc.peek connRecordHeaderLen) 3 2
      = slice w.conn.recvAcc.contents 3 2 := by
    rw [ByteQueue.peek_eq, slice_take _ _ _ _ (by decide)]
  by_cases hshort : w.conn.recvAcc.contents.length < connRecordHeaderLen
  · rw [if_pos (hpeek.mpr hshort), if_pos hshort]
  · rw [if_neg fun h => hshort (hpeek.mp h), if_neg hshort, hslice]
    dsimp only
    generalize beNat (slice w.conn.recvAcc.contents 3 2) = n
    by_cases hbig : w.conn.maxFrameLen < n
    · rw [if_pos hbig, if_pos hbig]
    · rw [if_neg hbig, if_neg hbig, ByteQueue.length_contents]
      by_cases hwait : w.conn.recvAcc.len < connRecordHeaderLen + n
      · rw [if_pos hwait, if_pos hwait]
      · rw [if_neg hwait, if_neg hwait, ByteQueue.read_fst, List.drop_take,
          Nat.add_sub_cancel_left]
        rfl

/-- The payload `conn_ws_take_payload` takes out. -/
theorem wsTakePayload_eq (w : ConnWorld) (h : WsFrameHeader)
    (hlen : h.headerLen + h.payloadLen ≤ w.conn.recvAcc.len) :
    w.wsTakePayload h = (h.payload w.conn.recvAcc.contents,
      w.cutOff (h.headerLen + h.payloadLen) w.assembly) := by
  unfold wsTakePayload
  dsimp only
  rw [ByteQueue.read_fst, ByteQueue.contents_read, ByteQueue.read_read _ _ _ hlen]
  rfl

theorem wsControl_eq (cb : OnEnvelope) (w : ConnWorld) (h : WsFrameHeader)
    (hlen : h.headerLen + h.payloadLen ≤ w.conn.recvAcc.len) (hctl : h.opcode.isControl = true) :
    w.wsControl h = answer cb (w.cutOff (h.headerLen + h.payloadLen) w.assembly)
      (w.assembly.act ⟨h.opcode, h.fin, h.payload w.conn.recvAcc.contents⟩) := by
  unfold wsControl Assembly.act
  rw [w.wsTakePayload_eq h hlen, if_pos hctl]
  dsimp only
  by_cases hping : h.opcode = .ping
  · rw [if_pos hping, if_pos hping]
    rfl
  · rw [if_neg hping, if_neg hping]
    by_cases hpong : h.opcode = .pong
    · rw [if_pos hpong, if_pos hpong]
      rfl
    · rw [if_neg hpong, if_neg hpong]
      rfl

theorem wsData_eq (cb : OnEnvelope) (w : ConnWorld) (h : WsFrameHeader)
    (hlen : h.headerLen + h.payloadLen ≤ w.conn.recvAcc.len) (hctl : ¬ h.opcode.isControl = true) :
    wsData cb w h =
      if w.assembly.Accepts w.conn.maxFrameLen ⟨h.opcode, h.fin, h.payload w.conn.recvAcc.contents⟩ then
        answer cb (w.cutOff (h.headerLen + h.payloadLen)
            (w.assembly.next ⟨h.opcode, h.fin, h.payload w.conn.recvAcc.contents⟩))
          (w.assembly.act ⟨h.opcode, h.fin, h.payload w.conn.recvAcc.contents⟩)
      else (w.markBroken, false) := by
  have hpay : (h.payload w.conn.recvAcc.contents).length = h.payloadLen :=
    length_payload h _ (by rw [ByteQueue.length_contents]; exact hlen)
  have hacc : w.assembly.Accepts w.conn.maxFrameLen ⟨h.opcode, h.fin, h.payload w.conn.recvAcc.contents⟩
      ↔ (h.opcode == .continuation) = w.conn.wsMsgActive
        ∧ h.payloadLen ≤ w.conn.maxFrameLen - w.conn.wsMsg.length := by
    rw [Assembly.Accepts, or_iff_right hctl, hpay]
    rfl
  unfold wsData
  by_cases hactive : (h.opcode == .continuation) = w.conn.wsMsgActive
  · rw [if_neg (by simpa using hactive)]
    by_cases hlimit : h.payloadLen ≤ w.conn.maxFrameLen - w.conn.wsMsg.length
    · rw [if_neg (Nat.not_lt.mpr hlimit), if_pos (hacc.mpr ⟨hactive, hlimit⟩),
        w.wsTakePayload_eq h hlen]
      simp only [Assembly.next, Assembly.act, if_neg hctl]
      cases h.fin <;> rfl
    · rw [if_pos (Nat.not_le.mp hlimit), if_neg fun hok => hlimit (hacc.mp hok).2]
  · rw [if_pos (by simpa using hactive), if_neg fun hok => hactive (hacc.mp hok).1]

theorem wsDispatchOnce_eq (cb : OnEnvelope) (w : ConnWorld) :
    wsDispatchOnce cb w
      = match wsTurn (w.conn.framing == .wsServer) w.conn.maxFrameLen w.assembly
          w.conn.recvAcc.contents with
        | .wait => (w, false)
        | .refuse => (w.markBroken, false)
        | .take n st act => answer cb (w.cutOff n st) act := by
  unfold wsDispatchOnce wsTurn wsFrameCut
  rw [ByteQueue.peek_eq]
  cases wsFrameParseHeader (w.conn.recvAcc.contents.take wsFrameMaxHeaderLen) with
  | incomplete => rfl
  | malformed => rfl
  | ok h =>
    dsimp only
    by_cases hmask : h.masked ≠ (w.conn.framing == .wsServer)
    · rw [if_pos hmask, if_pos hmask]
    · rw [if_neg hmask, if_neg hmask]
      by_cases hbig : w.conn.maxFrameLen < h.payloadLen
      · rw [if_pos hbig, if_pos hbig]
      · rw [if_neg hbig, if_neg hbig, ByteQueue.length_contents]
        by_cases hwait : w.conn.recvAcc.len < h.headerLen + h.payloadLen
        · rw [if_pos hwait, if_pos hwait]
        · rw [if_neg hwait, if_neg hwait]
          dsimp only
          by_cases hctl : h.opcode.isControl = true
          · have hacc : w.assembly.Accepts w.conn.maxFrameLen
                ⟨h.opcode, h.fin, h.payload w.conn.recvAcc.contents⟩ := Or.inl hctl
            rw [if_pos hctl, if_pos hacc, wsControl_eq cb w h (Nat.not_lt.mp hwait) hctl,
              Assembly.next, if_pos hctl]
          · rw [if_neg hctl, wsData_eq cb w h (Nat.not_lt.mp hwait) hctl]
            split <;> rfl

/-- A turn of the dispatch loop carries out the decision of `turn`. -/
theorem dispatchOnce_eq (cb : OnEnvelope) (w : ConnWorld) :
    dispatchOnce cb w
      = match w.turn with
        | .wait => (w, false)
        | .refuse => (w.markBroken, false)
        | .take n st act => answer cb (w.cutOff n st) act := by
  unfold dispatchOnce turn
  by_cases htls : w.conn.framing = .tlsRecord
  · rw [if_pos htls, if_pos htls, tlsDispatchOnce_eq]
  · rw [if_neg htls, if_neg htls, wsDispatchOnce_eq]

/-! ## Waiting is for less than a header and a largest payload -/

theorem turn_wait_lt {w : ConnWorld} (h : w.turn = .wait) :
    w.conn.recvAcc.len < wsFrameMaxHeaderLen + w.conn.maxFrameLen := by
  have hmax : wsFrameMaxHeaderLen = 14 := rfl
  have hrec : connRecordHeaderLen = 5 := rfl
  rw [← ByteQueue.length_contents]
  unfold turn at h
  split at h
  · unfold tlsTurn at h
    split at h
    · omega
    · split at h
      · cases h
      · split at h
        · omega
        · cases h
  · unfold wsTurn at h
    split at h
    · next hcut => exact wsFrameCut_wait_lt hcut
    · cases h
    · split at h <;> cases h

theorem turn_take_bounds {w : ConnWorld} {n : Nat} {st : Assembly} {act : RecvAct}
    (h : w.turn = .take n st act) : 0 < n ∧ n ≤ w.conn.recvAcc.len := by
  have hrec : connRecordHeaderLen = 5 := rfl
  rw [← ByteQueue.length_contents]
  unfold turn at h
  split at h
  · unfold tlsTurn at h
    split at h
    · cases h
    · split at h
      · cases h
      · split at h
        · cases h
        · obtain ⟨rfl, _, _⟩ := RecvTurn.take.inj h
          omega
  · unfold wsTurn at h
    split at h
    · cases h
    · cases h
    · next hcut =>
      have hbounds := wsFrameCut_frame_bounds hcut
      split at h
      · obtain ⟨rfl, _, _⟩ := RecvTurn.take.inj h
        omega
      · cases h

/-! ## The send side leaves the receive side alone -/

theorem SameRecv.refl (w : ConnWorld) : w.SameRecv w := ⟨rfl, rfl, rfl, rfl, rfl, rfl⟩

theorem SameRecv.trans {a b c : ConnWorld} (h : a.SameRecv b) (h' : b.SameRecv c) : a.SameRecv c :=
  ⟨h'.framing.trans h.framing, h'.maxFrameLen.trans h.maxFrameLen, h'.recvAcc.trans h.recvAcc,
    h'.wsMsg.trans h.wsMsg, h'.wsMsgActive.trans h.wsMsgActive, h'.delivered.trans h.delivered⟩

theorem sameRecv_markBroken (w : ConnWorld) : w.SameRecv w.markBroken :=
  ⟨rfl, rfl, rfl, rfl, rfl, rfl⟩

theorem sameRecv_facing (w : ConnWorld) (kernel : List SendRes) (keys : List MaskKey) :
    w.SameRecv (w.facing kernel keys) := ⟨rfl, rfl, rfl, rfl, rfl, rfl⟩

/-- `conn_sync_interest` and `conn_set_want_writable` change the mask and its flag. -/
theorem recv_syncInterest (c : Conn) :
    c.syncInterest.framing = c.framing ∧ c.syncInterest.maxFrameLen = c.maxFrameLen
      ∧ c.syncInterest.recvAcc = c.recvAcc ∧ c.syncInterest.wsMsg = c.wsMsg
      ∧ c.syncInterest.wsMsgActive = c.wsMsgActive ∧ c.syncInterest.broken = c.broken := by
  unfold Conn.syncInterest
  split <;> exact ⟨rfl, rfl, rfl, rfl, rfl, rfl⟩

theorem recv_setWantWritable (c : Conn) (want : Bool) :
    (c.setWantWritable want).recvAcc = c.recvAcc ∧ (c.setWantWritable want).wsMsg = c.wsMsg
      ∧ (c.setWantWritable want).wsMsgActive = c.wsMsgActive := by
  unfold Conn.setWantWritable
  split
  · exact ⟨rfl, rfl, rfl⟩
  · obtain ⟨_, _, hacc, hmsg, hact, _⟩ := recv_syncInterest { c with wantWritable := want }
    exact ⟨hacc, hmsg, hact⟩

/-- A connection that only had its send queue and its mask touched. -/
theorem sameRecv_setWantWritable (w v : ConnWorld) (q : ByteQueue) (want : Bool)
    (hconn : v.conn = Conn.setWantWritable { w.conn with sendQ := q } want)
    (hdel : v.delivered = w.delivered) : w.SameRecv v := by
  obtain ⟨hacc, hmsg, hact⟩ := recv_setWantWritable { w.conn with sendQ := q } want
  refine ⟨?_, ?_, ?_, ?_, ?_, hdel⟩
  · rw [hconn, framing_setWantWritable]
  · rw [hconn, maxFrameLen_setWantWritable]
  · rw [hconn, hacc]
  · rw [hconn, hmsg]
  · rw [hconn, hact]

theorem sameRecv_drainLoop (was : Bool) (fuel : Nat) (w : ConnWorld) :
    w.SameRecv (drainLoop was fuel w) := by
  induction fuel generalizing w with
  | zero => exact .refl w
  | succ fuel ih =>
    rw [drainLoop]
    split
    · exact w.sameRecv_setWantWritable _ w.conn.sendQ false rfl rfl
    · split
      · exact w.sameRecv_setWantWritable _ w.conn.sendQ true rfl rfl
      · exact w.sameRecv_setWantWritable _ w.conn.sendQ true rfl rfl
      · exact ⟨rfl, rfl, rfl, rfl, rfl, rfl⟩
      · next k ks _ =>
        split
        · exact w.sameRecv_setWantWritable _ (w.conn.sendQ.read k).2 true rfl rfl
        · refine SameRecv.trans ?_ (ih _)
          exact ⟨rfl, rfl, rfl, rfl, rfl, rfl⟩

theorem sameRecv_tryDrainSend (w : ConnWorld) : w.SameRecv w.tryDrainSend := sameRecv_drainLoop _ _ _

theorem sameRecv_dropKey (w : ConnWorld) : w.SameRecv w.dropKey := by
  unfold dropKey
  split
  · exact ⟨rfl, rfl, rfl, rfl, rfl, rfl⟩
  · exact .refl w

theorem sameRecv_wsEnqueueFrame (w : ConnWorld) (op : WsOpcode) (payload : List UInt8) :
    w.SameRecv (w.wsEnqueueFrame op payload).1 := by
  have hkey := w.sameRecv_dropKey
  unfold wsEnqueueFrame
  split
  · exact hkey.trans (sameRecv_markBroken _)
  · split
    · exact hkey.trans (sameRecv_markBroken _)
    · exact hkey.trans ⟨rfl, rfl, rfl, rfl, rfl, rfl⟩

theorem sameRecv_send (w : ConnWorld) (frame : List UInt8) : w.SameRecv (w.send frame).1 := by
  unfold send
  split
  · exact .refl w
  · split
    · exact w.sameRecv_markBroken
    · split
      · have hq := w.sameRecv_wsEnqueueFrame .binary frame
        split
        · next heq =>
          rw [heq] at hq
          exact hq
        · next heq =>
          rw [heq] at hq
          exact hq.trans (sameRecv_tryDrainSend _)
      · split
        · exact w.sameRecv_markBroken
        · split
          · exact w.sameRecv_markBroken
          · refine SameRecv.trans ?_ (sameRecv_tryDrainSend _)
            exact ⟨rfl, rfl, rfl, rfl, rfl, rfl⟩

/-! ## Carrying out a decision -/

/-- The act itself touches nothing on the receive side but the record of what was handed up. -/
theorem sameRecv_answer (cb : OnEnvelope) (w : ConnWorld) (act : RecvAct) :
    ConnWorld.SameRecv { w with delivered := w.delivered ++ act.messages } (answer cb w act).1 := by
  have hdel : ConnWorld.SameRecv { w with delivered := w.delivered ++ [] } w :=
    ⟨rfl, rfl, rfl, rfl, rfl, (List.append_nil _).symm⟩
  cases act with
  | handUp msg => exact cb.sameRecv { w with delivered := w.delivered ++ [msg] } msg
  | nothing => exact hdel
  | pong ctl =>
    have hq := w.sameRecv_wsEnqueueFrame .pong ctl
    simp only [answer]
    split
    · next heq =>
      rw [heq] at hq
      exact hdel.trans hq
    · next heq =>
      rw [heq] at hq
      exact hdel.trans (hq.trans (sameRecv_tryDrainSend _))
  | close ctl =>
    have hq := hdel.trans (w.sameRecv_wsEnqueueFrame .close ctl)
    simp only [answer]
    refine SameRecv.trans ?_ (sameRecv_markBroken _)
    split
    · exact hq
    · exact hq.trans (sameRecv_tryDrainSend _)

/-- The loop ends on an act only with the connection broken. -/
theorem answer_ends {cb : OnEnvelope} {w w' : ConnWorld} {act : RecvAct}
    (h : answer cb w act = (w', false)) : w'.conn.broken = true := by
  cases act with
  | handUp msg =>
    obtain ⟨rfl, hgo⟩ := Prod.mk.inj h
    simpa using hgo
  | nothing => cases h
  | pong ctl =>
    simp only [answer] at h
    split at h
    · next heq =>
      obtain ⟨rfl, _⟩ := Prod.mk.inj h
      rcases w.wsEnqueueFrame_enqueued .pong ctl with hfail | ⟨hok, _⟩
      · rw [hfail] at heq
        rw [← (Prod.mk.inj heq).1]
        rfl
      · rw [heq] at hok
        cases hok
    · obtain ⟨rfl, hgo⟩ := Prod.mk.inj h
      simpa using hgo
  | close ctl =>
    obtain ⟨rfl, _⟩ := Prod.mk.inj h
    rfl

/-- What receiving never changes. -/
structure RecvKept (w w' : ConnWorld) : Prop where
  framing : w'.conn.framing = w.conn.framing
  maxFrameLen : w'.conn.maxFrameLen = w.conn.maxFrameLen
  cap : w'.conn.recvAcc.cap = w.conn.recvAcc.cap
  closed : w'.conn.recvAcc.closed = w.conn.recvAcc.closed

theorem RecvKept.refl (w : ConnWorld) : w.RecvKept w := ⟨rfl, rfl, rfl, rfl⟩

theorem RecvKept.trans {a b c : ConnWorld} (h : a.RecvKept b) (h' : b.RecvKept c) : a.RecvKept c :=
  ⟨h'.framing.trans h.framing, h'.maxFrameLen.trans h.maxFrameLen, h'.cap.trans h.cap,
    h'.closed.trans h.closed⟩

theorem SameRecv.kept {w w' : ConnWorld} (h : w.SameRecv w') : w.RecvKept w' :=
  ⟨h.framing, h.maxFrameLen, by rw [h.recvAcc], by rw [h.recvAcc]⟩

/-- What a frame leaves behind: the bytes after it, its effect on the message under assembly, and
    what it handed up. -/
theorem answer_cutOff (cb : OnEnvelope) (w : ConnWorld) (n : Nat) (st : Assembly) (act : RecvAct) :
    w.RecvKept (answer cb (w.cutOff n st) act).1
      ∧ (answer cb (w.cutOff n st) act).1.conn.recvAcc.contents = w.conn.recvAcc.contents.drop n
      ∧ (answer cb (w.cutOff n st) act).1.assembly = st
      ∧ (answer cb (w.cutOff n st) act).1.delivered = w.delivered ++ act.messages := by
  have hsame := sameRecv_answer cb (w.cutOff n st) act
  refine ⟨?_, ?_, ?_, hsame.delivered⟩
  · refine ⟨hsame.framing, hsame.maxFrameLen, ?_, ?_⟩
    · rw [hsame.recvAcc]
      exact ByteQueue.cap_read _ _
    · rw [hsame.recvAcc]
      exact ByteQueue.closed_read _ _
  · rw [hsame.recvAcc]
    exact ByteQueue.contents_read _ _
  · rw [assembly, hsame.wsMsg, hsame.wsMsgActive]
    rfl

/-- With enough fuel the dispatch loop runs its course: the connection is broken or waits. -/
theorem dispatchLoop_ends (cb : OnEnvelope) (fuel : Nat) (w : ConnWorld)
    (hfuel : w.conn.recvAcc.len < fuel) :
    w.RecvKept (dispatchLoop cb fuel w)
      ∧ ((dispatchLoop cb fuel w).conn.broken = true ∨ (dispatchLoop cb fuel w).turn = .wait) := by
  -- every frame taken out shortens the accumulator, and the fuel stays above its length
  induction fuel generalizing w with
  | zero => omega
  | succ fuel ih =>
    have heq := dispatchOnce_eq cb w
    rw [dispatchLoop]
    cases hturn : w.turn with
    | wait =>
      rw [hturn] at heq
      rw [heq]
      exact ⟨.refl w, Or.inr hturn⟩
    | refuse =>
      rw [hturn] at heq
      rw [heq]
      exact ⟨(w.sameRecv_markBroken).kept, Or.inl rfl⟩
    | take n st act =>
      rw [hturn] at heq
      dsimp only at heq
      obtain ⟨hpos, hle⟩ := turn_take_bounds hturn
      obtain ⟨hkept, hcontents, _, _⟩ := answer_cutOff cb w n st act
      rw [heq]
      rcases hans : answer cb (w.cutOff n st) act with ⟨w', go⟩
      rw [hans] at hkept hcontents
      cases go with
      | false => exact ⟨hkept, Or.inl (answer_ends hans)⟩
      | true =>
        have hlen : w'.conn.recvAcc.len = w.conn.recvAcc.len - n := by
          rw [← ByteQueue.length_contents, hcontents, List.length_drop, ByteQueue.length_contents]
        obtain ⟨hkept', hend⟩ := ih w' (by omega)
        exact ⟨hkept.trans hkept', hend⟩

theorem extractAndDispatch_ends (cb : OnEnvelope) (w : ConnWorld) :
    w.RecvKept (extractAndDispatch cb w)
      ∧ ((extractAndDispatch cb w).conn.broken = true ∨ (extractAndDispatch cb w).turn = .wait) :=
  dispatchLoop_ends cb _ w (Nat.lt_succ_self _)

end ConnWorld

/-- What happens to a connection from outside, with what the kernel and the generator answer. -/
inductive ConnIn where
  | ready (events : Interest) (turns : List ConnWorld.ReadTurn) (kernel : List SendRes)
      (keys : List MaskKey)
  | rxTimer (turns : List ConnWorld.ReadTurn) (kernel : List SendRes) (keys : List MaskKey)
  | send (frame : List UInt8) (kernel : List SendRes) (keys : List MaskKey)

namespace ConnWorld

/-! ## Whole runs -/

/-- The reactor's callback, the resume timer's if it is pending, or a call from the owner. -/
def handle (cb : OnEnvelope) (w : ConnWorld) : ConnIn → ConnWorld
  | .ready events turns kernel keys => reactorCb cb (w.facing kernel keys) events turns
  | .rxTimer turns kernel keys =>
    if w.conn.rxResumeTimer then rxResume cb (w.facing kernel keys) turns else w
  | .send frame kernel keys => ((w.facing kernel keys).send frame).1

/-- The states in which the loop of `conn_handle_readable` asks for room. -/
def roomTests (cb : OnEnvelope) : List ReadTurn → ConnWorld → List ConnWorld
  | [], w => [w]
  | t :: ts, w =>
    w :: if w.conn.recvAcc.freeSpace = 0 ∨ t.allowed = 0 then []
      else
        match t.res with
        | .data bs =>
          if (bs.take (w.readWant t.allowed)).length = 0
            ∨ (recvBytes cb w (bs.take (w.readWant t.allowed))).conn.broken then []
          else roomTests cb ts (recvBytes cb w (bs.take (w.readWant t.allowed)))
        | _ => []

/-- The same over one event. -/
def roomTestsIn (cb : OnEnvelope) (w : ConnWorld) : ConnIn → List ConnWorld
  | .ready events turns kernel keys =>
    if w.conn.broken ∨ ¬ events.readable then [] else roomTests cb turns (w.facing kernel keys)
  | .rxTimer turns kernel keys =>
    if w.conn.broken ∨ ¬ w.conn.rxResumeTimer then []
    else roomTests cb turns { w.facing kernel keys with
      conn := Conn.syncInterest { w.conn with rxResumeTimer := false, readPaused := false } }
  | .send _ _ _ => []

/-- A connection of these sizes that has room to read while it lives. -/
structure Roomy (fr : Framing) (m : Nat) (w : ConnWorld) : Prop where
  framing : w.conn.framing = fr
  maxFrameLen : w.conn.maxFrameLen = m
  cap : w.conn.recvAcc.cap = 2 * fr.recvEnvelopeLen m
  room : w.conn.broken = false → 0 < w.conn.recvAcc.freeSpace

section Room

variable {fr : Framing} {m : Nat} {w w' : ConnWorld}

/-- Twice the envelope of a session's frame exceeds a largest header and payload. -/
theorem waiting_lt_cap (fr : Framing) (hm : frameHeaderLen + frameMaxExtraLen < m) :
    wsFrameMaxHeaderLen + m ≤ 2 * fr.recvEnvelopeLen m := by
  have h269 : frameHeaderLen + frameMaxExtraLen = 269 := rfl
  have h14 : wsFrameMaxHeaderLen = 14 := rfl
  have h125 : wsFrameMaxControlPayload = 125 := rfl
  have h5 : connRecordHeaderLen = 5 := rfl
  cases fr with
  | tlsRecord =>
    rw [Framing.recvEnvelopeLen]
    omega
  | wsClient =>
    rw [Framing.recvEnvelopeLen, connWsEnvelopeLen, if_pos (show wsFrameMaxControlPayload < m by omega)]
    omega
  | wsServer =>
    rw [Framing.recvEnvelopeLen, connWsEnvelopeLen, if_pos (show wsFrameMaxControlPayload < m by omega)]
    omega

theorem Roomy.of_sameRecv (h : Roomy fr m w) (hsame : w.SameRecv w')
    (hlive : w'.conn.broken = false → w.conn.broken = false) : Roomy fr m w' :=
  ⟨hsame.framing.trans h.framing, hsame.maxFrameLen.trans h.maxFrameLen,
    by rw [hsame.recvAcc, h.cap], fun hb => by rw [hsame.recvAcc]; exact h.room (hlive hb)⟩

/-- Dispatch ends with room for the next read, whatever was accumulated. -/
theorem Roomy.recvBytes (hm : frameHeaderLen + frameMaxExtraLen < m) (h : Roomy fr m w)
    (cb : OnEnvelope) (bs : List UInt8) : Roomy fr m (ConnWorld.recvBytes cb w bs) := by
  have hcap := waiting_lt_cap fr hm
  have hpos : 0 < wsFrameMaxHeaderLen := by decide
  obtain ⟨hkept, hend⟩ := extractAndDispatch_ends cb
    { w with conn := { w.conn with recvAcc := (w.conn.recvAcc.write bs).1 } }
  unfold ConnWorld.recvBytes
  generalize extractAndDispatch cb
    { w with conn := { w.conn with recvAcc := (w.conn.recvAcc.write bs).1 } } = v at hkept hend
  have hmax : v.conn.maxFrameLen = m := hkept.maxFrameLen.trans h.maxFrameLen
  have hvcap : v.conn.recvAcc.cap = 2 * fr.recvEnvelopeLen m :=
    hkept.cap.trans ((ByteQueue.cap_write _ _).trans h.cap)
  refine ⟨hkept.framing.trans h.framing, hmax, hvcap, fun hlive => ?_⟩
  rcases hend with hb | hwait
  · rw [hlive] at hb
    cases hb
  · have hlt := turn_wait_lt hwait
    rw [ByteQueue.freeSpace, hvcap]
    omega

theorem Roomy.markBroken (h : Roomy fr m w) : Roomy fr m w.markBroken :=
  h.of_sameRecv w.sameRecv_markBroken (fun hb => by cases hb)

theorem sameRecv_syncInterest (w : ConnWorld) (timer paused : Bool) :
    w.SameRecv { w with
      conn := Conn.syncInterest { w.conn with rxResumeTimer := timer, readPaused := paused } } := by
  obtain ⟨hfr, hmax, hacc, hmsg, hact, _⟩ :=
    recv_syncInterest { w.conn with rxResumeTimer := timer, readPaused := paused }
  exact ⟨hfr, hmax, hacc, hmsg, hact, rfl⟩

theorem Roomy.syncInterest (h : Roomy fr m w) (timer paused : Bool) :
    Roomy fr m { w with
      conn := Conn.syncInterest { w.conn with rxResumeTimer := timer, readPaused := paused } } := by
  obtain ⟨_, _, _, _, _, hbroken⟩ :=
    recv_syncInterest { w.conn with rxResumeTimer := timer, readPaused := paused }
  exact h.of_sameRecv (w.sameRecv_syncInterest timer paused) fun hb => hbroken.symm.trans hb

theorem Roomy.pauseReadForRate (h : Roomy fr m w) (timerOk : Bool) :
    Roomy fr m (w.pauseReadForRate timerOk) := by
  unfold ConnWorld.pauseReadForRate
  split
  · exact h.markBroken
  · exact h.syncInterest true true

/-- The read loop finds room each time it asks, and leaves room. -/
theorem Roomy.handleReadable (hm : frameHeaderLen + frameMaxExtraLen < m) (cb : OnEnvelope)
    (turns : List ReadTurn) (h : Roomy fr m w) (hlive : w.conn.broken = false) :
    Roomy fr m (ConnWorld.handleReadable cb turns w)
      ∧ ∀ v ∈ roomTests cb turns w, 0 < v.conn.recvAcc.freeSpace := by
  induction turns generalizing w with
  | nil =>
    refine ⟨h, fun v hv => ?_⟩
    rw [List.mem_singleton.mp hv]
    exact h.room hlive
  | cons t ts ih =>
    have hroom := h.room hlive
    -- the test at the head of the loop, and whatever the rest of the loop finds
    have hcons : ∀ {vs : List ConnWorld}, (∀ v ∈ vs, 0 < v.conn.recvAcc.freeSpace) →
        ∀ v ∈ w :: vs, 0 < v.conn.recvAcc.freeSpace := fun hvs =>
      List.forall_mem_cons.mpr ⟨hroom, hvs⟩
    rw [ConnWorld.handleReadable, roomTests, if_neg (by omega)]
    by_cases hallow : t.allowed = 0
    · rw [if_pos hallow, if_pos (Or.inr hallow)]
      exact ⟨h.pauseReadForRate t.timerOk, hcons (by simp)⟩
    · rw [if_neg hallow, if_neg (by omega)]
      cases t.res with
      | again => exact ⟨h, hcons (by simp)⟩
      | eof => exact ⟨h.markBroken, hcons (by simp)⟩
      | error => exact ⟨h.markBroken, hcons (by simp)⟩
      | data bs =>
        dsimp only
        have hrecv := h.recvBytes hm cb (bs.take (w.readWant t.allowed))
        by_cases hnone : (bs.take (w.readWant t.allowed)).length = 0
        · rw [if_pos hnone, if_pos (Or.inl hnone)]
          exact ⟨h.markBroken, hcons (by simp)⟩
        · rw [if_neg hnone]
          by_cases hb : (ConnWorld.recvBytes cb w (bs.take (w.readWant t.allowed))).conn.broken = true
          · rw [if_pos hb, if_pos (Or.inr hb)]
            exact ⟨hrecv, hcons (by simp)⟩
          · rw [if_neg hb, if_neg (not_or.mpr ⟨hnone, hb⟩)]
            obtain ⟨hrest, htests⟩ := ih hrecv (Bool.eq_false_iff.mpr hb)
            exact ⟨hrest, hcons htests⟩

theorem broken_drainLoop (was : Bool) (fuel : Nat) (w : ConnWorld)
    (h : (drainLoop was fuel w).conn.broken = false) : w.conn.broken = false := by
  by_contra hb
  rw [(drainLoop_drained was fuel w).broken (Bool.eq_true_of_not_eq_false hb)] at h
  cases h

theorem Roomy.tryDrainSend (h : Roomy fr m w) : Roomy fr m w.tryDrainSend :=
  h.of_sameRecv w.sameRecv_tryDrainSend (broken_drainLoop _ _ w)

theorem Roomy.facing (h : Roomy fr m w) (kernel : List SendRes) (keys : List MaskKey) :
    Roomy fr m (w.facing kernel keys) :=
  h.of_sameRecv (w.sameRecv_facing kernel keys) id

theorem Roomy.send (h : Roomy fr m w) (frame : List UInt8) : Roomy fr m (w.send frame).1 := by
  refine h.of_sameRecv (w.sameRecv_send frame) fun hb => ?_
  by_contra hbroken
  have hdead := (send_kept (.refl w) rfl frame).broken (Bool.eq_true_of_not_eq_false hbroken)
  rw [hb] at hdead
  cases hdead

theorem Roomy.reactorCb (hm : frameHeaderLen + frameMaxExtraLen < m) (cb : OnEnvelope)
    (h : Roomy fr m w) (events : Interest) (turns : List ReadTurn) :
    Roomy fr m (ConnWorld.reactorCb cb w events turns) := by
  unfold ConnWorld.reactorCb
  split
  · exact h
  · next hb =>
    have hread : Roomy fr m (if events.readable then ConnWorld.handleReadable cb turns w else w) := by
      split
      · exact (h.handleReadable hm cb turns (Bool.eq_false_iff.mpr hb)).1
      · exact h
    dsimp only
    generalize (if events.readable then ConnWorld.handleReadable cb turns w else w) = v at hread
    split
    · exact hread
    · split
      · exact hread.tryDrainSend
      · exact hread

/-- One event finds room wherever it asks for it, and leaves room. -/
theorem Roomy.handle (hm : frameHeaderLen + frameMaxExtraLen < m) (cb : OnEnvelope)
    (h : Roomy fr m w) (ev : ConnIn) :
    Roomy fr m (w.handle cb ev) ∧ ∀ v ∈ w.roomTestsIn cb ev, 0 < v.conn.recvAcc.freeSpace := by
  cases ev with
  | ready events turns kernel keys =>
    have hface := h.facing kernel keys
    refine ⟨hface.reactorCb hm cb events turns, ?_⟩
    rw [roomTestsIn]
    split
    · simp
    · next hask =>
      have hlive := Bool.eq_false_iff.mpr (not_or.mp hask).1
      exact (hface.handleReadable hm cb turns hlive).2
  | rxTimer turns kernel keys =>
    have hface := h.facing kernel keys
    simp only [ConnWorld.handle, roomTestsIn, rxResume]
    by_cases ht : w.conn.rxResumeTimer = true
    · rw [if_pos ht]
      by_cases hb : w.conn.broken = true
      · rw [if_pos (show (w.facing kernel keys).conn.broken = true from hb), if_pos (Or.inl hb)]
        exact ⟨hface.of_sameRecv ⟨rfl, rfl, rfl, rfl, rfl, rfl⟩ id, by simp⟩
      · rw [if_neg (show ¬ (w.facing kernel keys).conn.broken = true from hb),
          if_neg (by simp [hb, ht])]
        refine (hface.syncInterest false false).handleReadable hm cb turns ?_
        obtain ⟨_, _, _, _, _, hbroken⟩ := recv_syncInterest
          { w.conn with rxResumeTimer := false, readPaused := false }
        exact hbroken.trans (Bool.eq_false_iff.mpr hb)
    · rw [if_neg ht, if_pos (Or.inr ht)]
      exact ⟨h, by simp⟩
  | send frame kernel keys => exact ⟨(h.facing kernel keys).send frame, fun v hv => by cases hv⟩

end Room

/-- Receiving never gets stuck: in every run of a session's connection, whatever the bytes, the
    pieces they come in and the callee, the accumulator of a live connection has room, and so it has
    whenever the read loop asks. -/
theorem recv_never_full (c : SessionConfig) (hc : c.Accepted) (fr : Framing) (conn : Conn)
    (hinit : Conn.init fr c.maxOnWireSize c.connSendQueueCap = some conn) (cb : OnEnvelope)
    (evs : List ConnIn) (ev : ConnIn) :
    ((run (handle cb) (fresh conn) evs).conn.broken = false →
        0 < (run (handle cb) (fresh conn) evs).conn.recvAcc.freeSpace)
      ∧ ∀ v ∈ (run (handle cb) (fresh conn) evs).roomTestsIn cb ev,
        0 < v.conn.recvAcc.freeSpace := by
  have hm : frameHeaderLen + frameMaxExtraLen < c.maxOnWireSize :=
    Nat.not_le.mp fun hle => hc.2 (Or.inl hle)
  obtain ⟨_, hfr, hmax, hempty, _, hcap, _⟩ := Conn.init_spec hinit
  have h0 : Roomy fr c.maxOnWireSize (fresh conn) := by
    refine ⟨hfr, hmax, hcap, fun _ => ?_⟩
    have hpos := conn.recvAcc.cap_pos
    rw [fresh, ByteQueue.freeSpace, (ByteQueue.contents_eq_nil_iff _).mp hempty]
    exact hpos
  have hrun : Roomy fr c.maxOnWireSize (run (handle cb) (fresh conn) evs) :=
    run_invariant h0 (fun _ e h => (h.handle hm cb e).1) evs
  exact ⟨hrun.room, (hrun.handle hm cb ev).2⟩

theorem smallConn_isSome (fr : Framing) : (Conn.init fr Session.smallConfig.maxOnWireSize
    Session.smallConfig.connSendQueueCap).isSome = true := by
  cases fr <;> decide

/-- A server connection at the smallest configuration, half-way through a header of fourteen bytes. -/
theorem recv_never_full_header : ∃ conn,
    Conn.init .wsServer Session.smallConfig.maxOnWireSize Session.smallConfig.connSendQueueCap = some conn
      ∧ 0 < (run (handle .ignore) (fresh conn) [.ready ⟨true, false⟩
        [⟨9, true, .data [0x82, 0xff, 0, 0, 0, 0, 0, 0, 1]⟩] [] []]).conn.recvAcc.freeSpace := by
  refine ⟨_, (Option.some_get (smallConn_isSome .wsServer)).symm, ?_⟩
  exact (recv_never_full Session.smallConfig (by decide) .wsServer _
    (Option.some_get (smallConn_isSome .wsServer)).symm .ignore _ (.send [] [] [])).1 (by decide +kernel)

end ConnWorld

end Cloak
