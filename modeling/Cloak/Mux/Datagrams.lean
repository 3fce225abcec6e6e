import Cloak.Mux.Stream

set_option autoImplicit false

/-! # Datagrams on a stream (`stream.c`, unordered mode)

The receive side of an unordered stream as the list of datagrams it holds, and what an envelope can
add to that list. How long a datagram is follows from the envelope's length and one byte of its
header (`extraLen`), which nothing authenticates. -/

namespace Cloak

open Lib

namespace UnorderedRecv

/-- The queue holds the datagrams `ms`, and it is closed exactly from a closing frame on. -/
structure Holds (r : UnorderedRecv) (ms : List (List UInt8)) : Prop where
  msgs : r.recvMsgs.Holds ms
  closed : r.recvMsgs.closed = r.recvClosingSeen

variable {r : UnorderedRecv} {m : List UInt8} {ms : List (List UInt8)} {frame : Frame} {n : Nat}

/-- The datagrams `feed_frame_unordered` lets in. -/
def Accepts (r : UnorderedRecv) (frame : Frame) : Prop :=
  frame.closing = closingNothing ∧ (r.recvMsgs.write frame.payload).2 = .ok

instance (r : UnorderedRecv) (frame : Frame) : Decidable (r.Accepts frame) := by
  unfold Accepts
  infer_instance

/-- A frame either puts its payload behind the queue or leaves the queue as it was. -/
theorem Holds.feedFrame (hr : r.Holds ms) (frame : Frame) :
    (r.feedFrame frame).1.Holds (if r.Accepts frame then ms ++ [frame.payload] else ms) := by
  have hclosed := r.recvMsgs.closed_write frame.payload
  unfold UnorderedRecv.feedFrame
  split
  · next hseen =>
    rw [if_neg ?_]
    · exact hr
    · intro hacc
      have hopen := ((r.recvMsgs.write_ok_iff _).mp hacc.2).1
      rw [hr.closed, hseen] at hopen
      cases hopen
  · split
    · next hclosing =>
      rw [if_neg fun hacc => hclosing hacc.1]
      exact ⟨hr.msgs.close, rfl⟩
    · next hclosing =>
      split
      · next heq =>
        rw [if_neg (by simp [Accepts, heq])]
        exact hr
      · next q heq =>
        have hok : (r.recvMsgs.write frame.payload).2 = .ok := by rw [heq]
        have hq := hr.msgs.write hok
        rw [heq] at hq hclosed
        rw [if_pos ⟨by simpa using hclosing, hok⟩]
        exact ⟨hq, hclosed.trans hr.closed⟩
      · next q res hlarge hok heq =>
        rw [if_neg (by simpa [Accepts, heq] using fun _ => hok)]
        exact ⟨hr.msgs, hr.closed⟩

theorem seen_feedFrame (hdata : frame.closing = closingNothing) :
    (r.feedFrame frame).1.recvClosingSeen = r.recvClosingSeen := by
  unfold UnorderedRecv.feedFrame
  split
  · rfl
  · split
    · next h => exact absurd hdata h
    · split <;> rfl

/-- An open queue with room for one more datagram takes it. -/
theorem Holds.feedFrame_data (hr : r.Holds ms) (frame : Frame) (hopen : r.recvClosingSeen = false)
    (hdata : frame.closing = closingNothing) (hrange : frame.payload.length ≤ 0xffffffff)
    (hfit : (ms.flatMap MsgQueue.record).length + frame.payload.length + msgQueueLenPrefix
      ≤ r.recvMsgs.cap) : (r.feedFrame frame).1.Holds (ms ++ [frame.payload]) := by
  have hlen := hr.msgs.len
  have hfed := hr.feedFrame frame
  rw [if_pos ⟨hdata, (r.recvMsgs.write_ok_iff _).mpr
    ⟨hr.closed.trans hopen, hrange, by omega⟩⟩] at hfed
  exact hfed

theorem Holds.read_nil (hr : r.Holds []) (n : Nat) :
    r.read n = (r, if r.recvClosingSeen then .eof else .bytes []) := by
  have heof := hr.msgs.isEof_iff
  rw [hr.closed] at heof
  rw [read, hr.msgs.read_nil]
  simp only [heof, and_true]

theorem Holds.read_short (hr : r.Holds (m :: ms)) (h : n < m.length) :
    r.read n = (r, .shortBuffer) := by
  rw [read, hr.msgs.read_short h]

theorem Holds.read_msg (hr : r.Holds (m :: ms)) (h : m.length ≤ n) :
    (r.read n).2 = .bytes m ∧ (r.read n).1.Holds ms
      ∧ (r.read n).1.recvClosingSeen = r.recvClosingSeen := by
  obtain ⟨hmsg, hrest⟩ := hr.msgs.read_msg h
  have hclosed := r.recvMsgs.closed_read n
  unfold read
  split
  · next heq => rw [heq] at hmsg; cases hmsg
  · next heq => rw [heq] at hmsg; cases hmsg
  · next bs q heq =>
    rw [heq] at hmsg hrest hclosed
    obtain rfl := MsgQueueRead.msg.inj hmsg
    exact ⟨rfl, ⟨hrest, hclosed.trans hr.closed⟩, rfl⟩

/-- What the session hands to the stream for an envelope: the frame in it, if there is one. -/
def feedEnvelope (evp : Evp) (o : Obfuscator) (r : UnorderedRecv) (envelope : List UInt8) :
    UnorderedRecv :=
  match Frame.deobfuscate evp o envelope with
  | none => r
  | some frame => (r.feedFrame frame).1

/-- The queue holds datagrams with `P` only. -/
def Queues (P : List UInt8 → Prop) (r : UnorderedRecv) : Prop := ∃ ms, r.Holds ms ∧ ∀ m ∈ ms, P m

/-- If an envelope carries a datagram, it is one with `P`. -/
def Carries (evp : Evp) (o : Obfuscator) (P : List UInt8 → Prop) (envelope : List UInt8) : Prop :=
  ∀ frame, Frame.deobfuscate evp o envelope = some frame → frame.closing = closingNothing →
    P frame.payload

theorem Queues.feedEnvelope {evp : Evp} {o : Obfuscator} {P : List UInt8 → Prop}
    {envelope : List UInt8} (hr : r.Queues P) (he : Carries evp o P envelope) :
    (r.feedEnvelope evp o envelope).Queues P := by
  obtain ⟨ms, hms, hP⟩ := hr
  unfold UnorderedRecv.feedEnvelope
  split
  · exact ⟨ms, hms, hP⟩
  · next frame hframe =>
    have hfed := hms.feedFrame frame
    split at hfed
    · next hacc =>
      refine ⟨_, hfed, ?_⟩
      rw [List.forall_mem_append, List.forall_mem_singleton]
      exact ⟨hP, he frame hframe hacc.1⟩
    · exact ⟨ms, hfed, hP⟩

/-- Envelopes one after another. -/
def feedEnvelopes (evp : Evp) (o : Obfuscator) (r : UnorderedRecv) (envelopes : List (List UInt8)) :
    UnorderedRecv :=
  envelopes.foldl (feedEnvelope evp o) r

theorem Queues.feedEnvelopes {evp : Evp} {o : Obfuscator} {P : List UInt8 → Prop}
    {es : List (List UInt8)} (hr : r.Queues P) (he : ∀ e ∈ es, Carries evp o P e) :
    (r.feedEnvelopes evp o es).Queues P := by
  induction es generalizing r with
  | nil => exact hr
  | cons e es ih =>
    rw [List.forall_mem_cons] at he
    exact ih (hr.feedEnvelope he.1) he.2

theorem Queues.of_nil {P : List UInt8 → Prop} (hr : r.Holds []) : r.Queues P := ⟨[], hr, nofun⟩

end UnorderedRecv

/-- A fresh unordered stream holds nothing, behind the limit its session's frame size gives. -/
theorem Stream.init_unordered {id : UInt32} {o : Obfuscator} {maxOnWireSize recvCapacity n : Nat}
    {st : Stream} (h : init id o maxOnWireSize recvCapacity n .unordered = .ok st) :
    frameHeaderLen + frameMaxExtraLen < maxOnWireSize
      ∧ st.maxPayloadPerFrame = maxOnWireSize - frameHeaderLen - frameMaxExtraLen
      ∧ ∃ r, st.recv = .unordered r ∧ r.Holds [] ∧ r.recvClosingSeen = false
        ∧ r.recvMsgs.cap = recvCapacity := by
  have hcap := (init_spec h).2.2.2.2
  unfold init at h
  rw [if_neg (by simp)] at h
  split at h
  · cases h
  · split at h
    · cases h
    · split at h
      · cases h
      · next hsize _ recv hrecv =>
        cases h
        obtain ⟨q, hq, rfl⟩ := Option.map_eq_some_iff.mp hrecv
        have hopen : q.closed = false := by
          unfold MsgQueue.init at hq
          split at hq
          · obtain rfl := Option.some.inj hq
            rfl
          · cases hq
        exact ⟨by omega, rfl, _, rfl, ⟨MsgQueue.holds_init hq, hopen⟩, rfl, hcap⟩

namespace Frame

/-- The overhead an envelope claims for itself: the last byte of its decrypted header. -/
def extraLen (o : Obfuscator) (envelope : List UInt8) : Nat :=
  ((xorHeader o envelope envelope.length).getD 13 0).toNat

/-- An accepted envelope is header, payload and the overhead it claims. -/
theorem length_of_deobfuscate {evp : Evp} {o : Obfuscator} {envelope : List UInt8} {frame : Frame}
    (h : deobfuscate evp o envelope = some frame) :
    envelope.length = frameHeaderLen + frame.payload.length + extraLen o envelope := by
  unfold deobfuscate at h
  split at h
  · cases h
  · next hlen =>
    have hx := length_xorHeader o envelope envelope.length (by omega)
    unfold parse at h
    rw [hx] at h
    unfold extraLen
    generalize hbuf : xorHeader o envelope envelope.length = buf at h hx ⊢
    split at h
    · cases h
    · split at h
      · cases h
      · next hextra =>
        split at h
        · cases h
        · next payload hbody =>
          obtain rfl := Option.some.inj h
          have hpayload : payload.length
              = envelope.length - frameHeaderLen - (buf.getD 13 0).toNat := by
            unfold openBody at hbody
            split at hbody
            · obtain rfl := Option.some.inj hbody
              exact length_slice _ _ _ (by omega)
            · split at hbody
              · cases hbody
              · next opened _ =>
                split at hbody
                · cases hbody
                · obtain rfl := Option.some.inj hbody
                  apply length_slice
                  simp only [patch, List.length_append, List.length_take, List.length_drop]
                  omega
          simp only
          omega

/-- A payload fits one of our own frames exactly if the envelope keeps as far below the limit as its
    overhead does below the largest one. -/
theorem payload_le_iff {evp : Evp} {o : Obfuscator} {envelope : List UInt8} {frame : Frame}
    {maxOnWireSize : Nat} (h : deobfuscate evp o envelope = some frame)
    (hsize : frameHeaderLen + frameMaxExtraLen < maxOnWireSize) :
    frame.payload.length ≤ maxOnWireSize - frameHeaderLen - frameMaxExtraLen
      ↔ envelope.length + frameMaxExtraLen ≤ maxOnWireSize + extraLen o envelope := by
  have hlen := length_of_deobfuscate h
  omega

/-- An envelope with the header `buf` has in the clear. -/
theorem deobfuscate_xorHeader (evp : Evp) (o : Obfuscator) (buf : List UInt8)
    (h : frameHeaderLen + salsa20NonceLen ≤ buf.length) :
    deobfuscate evp o (xorHeader o buf buf.length) = parse evp o buf
      ∧ extraLen o (xorHeader o buf buf.length) = (buf.getD 13 0).toNat := by
  have hlen : (xorHeader o buf buf.length).length = buf.length := length_xorHeader _ _ _ (by omega)
  have hback := xorHeader_xorHeader o buf buf.length h (Nat.le_refl _)
  rw [List.take_length, List.take_of_length_le (Nat.le_of_eq hlen)] at hback
  rw [deobfuscate, extraLen, hlen, hback, if_neg (by omega)]
  exact ⟨rfl, rfl⟩

end Frame

end Cloak
