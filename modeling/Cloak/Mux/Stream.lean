import Cloak.Mux.MsgQueue
import Cloak.Mux.Reassembly

set_option autoImplicit false

/-! # Multiplexed streams (`stream.c`)

A stream chunks outbound bytes into frames and turns inbound frames back into something readable.
The send side is one machine for both modes, except that an unordered stream refuses to split. The
receive side is two different machines, of which `ordering` picks one: `Recv` is their sum, so the
queue of the other mode does not exist.

A stream hands each sealed frame to its sink before it goes on. `sealFrame` is the part before the
call: build the frame at `next_write_seq`, obfuscate it, advance the counter. `write` and
`sendClosing` are the loops around it, with the sink's answers as input. -/

namespace Cloak

open Lib

/-- `cloak_session_ordering_t`; `invalid` stands for every other value. -/
inductive SessionOrdering where
  | invalid
  | ordered
  | unordered
deriving DecidableEq, Repr

/-- The unordered-mode fields of `cloak_stream_t`. -/
structure UnorderedRecv where
  recvMsgs : MsgQueue
  recvDroppedDatagrams : Nat
  recvClosingSeen : Bool
deriving DecidableEq

namespace UnorderedRecv

/-- `feed_frame_unordered`. -/
def feedFrame (r : UnorderedRecv) (frame : Frame) : UnorderedRecv × FeedResult :=
  if r.recvClosingSeen then (r, .closed)
  else if frame.closing ≠ closingNothing then
    ({ r with recvClosingSeen := true, recvMsgs := r.recvMsgs.close }, .closed)
  else
    match r.recvMsgs.write frame.payload with
    | (_, .tooLarge) => (r, .error)
    | (q, .ok) => ({ r with recvMsgs := q }, .ok)
    | (_, _) => ({ r with recvDroppedDatagrams := r.recvDroppedDatagrams + 1 }, .ok)

/-- `cloak_stream_read` in unordered mode. -/
def read (r : UnorderedRecv) (outCap : Nat) : UnorderedRecv × ReadResult :=
  match r.recvMsgs.read outCap with
  | (.shortBuffer, _) => (r, .shortBuffer)
  | (.empty, _) => (r, if r.recvMsgs.isEof then .eof else .bytes [])
  | (.msg bs, q) => ({ r with recvMsgs := q }, .bytes bs)

theorem cap_feedFrame (r : UnorderedRecv) (frame : Frame) :
    (r.feedFrame frame).1.recvMsgs.cap = r.recvMsgs.cap := by
  have hcap := MsgQueue.cap_write r.recvMsgs frame.payload
  unfold feedFrame
  split
  · rfl
  · split
    · rfl
    · split
      · rfl
      · next heq =>
        rw [heq] at hcap
        exact hcap
      · rfl

theorem cap_read (r : UnorderedRecv) (outCap : Nat) :
    (r.read outCap).1.recvMsgs.cap = r.recvMsgs.cap := by
  have hcap := MsgQueue.cap_read r.recvMsgs outCap
  unfold read
  split
  · rfl
  · rfl
  · next heq =>
    rw [heq] at hcap
    exact hcap

end UnorderedRecv

/-- The receive side of a stream, by mode. -/
inductive Recv where
  | ordered (r : OrderedRecv)
  | unordered (r : UnorderedRecv)
deriving DecidableEq

/-- The capacity of the queue behind the receive side. -/
def Recv.cap : Recv → Nat
  | .ordered r => r.recvBytes.cap
  | .unordered r => r.recvMsgs.cap

/-- `cloak_stream_t`. `write_buf` is scratch: every byte the sink sees is written by the same call,
    so only its capacity is kept. -/
structure Stream where
  id : UInt32
  obfuscator : Obfuscator
  maxPayloadPerFrame : Nat
  writeBufCap : Nat
  nextWriteSeq : Nat
  writeClosed : Bool
  recv : Recv
  maxPayload_pos : 0 < maxPayloadPerFrame
  writeBufCap_eq : writeBufCap = frameHeaderLen + maxPayloadPerFrame + frameMaxExtraLen
deriving DecidableEq

/-- A frame together with the bytes handed to the sink for it. -/
structure SealedFrame where
  frame : Frame
  wire : List UInt8
deriving DecidableEq, Repr

/-- What one frame of a write meets: the random draws, and whether the sink accepts it. -/
structure FrameEnv where
  draws : FrameDraws
  sinkOk : Bool

/-- What a closing frame meets: the byte behind its payload length and the payload's own bytes. -/
structure ClosingEnv where
  lenByte : UInt8
  pad : Nat → UInt8
  frame : FrameEnv

namespace Stream

def isOrdered (s : Stream) : Bool :=
  match s.recv with
  | .ordered _ => true
  | .unordered _ => false

/-- How `cloak_stream_init` fails. -/
inductive InitError where
  | invalidOrdering
  | failed
deriving DecidableEq, Repr

/-- The receive side `cloak_stream_init` builds. -/
def initRecv (recvCapacity maxPendingFrames : Nat) : SessionOrdering → Option Recv
  | .unordered => (MsgQueue.init recvCapacity).map fun q => .unordered ⟨q, 0, false⟩
  | _ =>
    match h : ByteQueue.init recvCapacity with
    | none => none
    | some q => some (.ordered (.fresh q (ByteQueue.init_spec h).2.1 maxPendingFrames))

/-- `cloak_stream_init`. -/
def init (id : UInt32) (o : Obfuscator) (maxOnWireSize recvCapacity maxPendingFrames : Nat)
    (ordering : SessionOrdering) : Except InitError Stream :=
  if ordering = .invalid then .error .invalidOrdering
  else if h : maxOnWireSize ≤ frameHeaderLen + frameMaxExtraLen then .error .failed
  else if recvCapacity = 0 ∨ recvCapacity < maxOnWireSize - frameHeaderLen then .error .failed
  else
    match initRecv recvCapacity (if 0 < maxPendingFrames then maxPendingFrames else 1) ordering with
    | none => .error .failed
    | some recv =>
      .ok { id := id, obfuscator := o,
            maxPayloadPerFrame := maxOnWireSize - frameHeaderLen - frameMaxExtraLen,
            writeBufCap := maxOnWireSize, nextWriteSeq := 0, writeClosed := false, recv := recv,
            maxPayload_pos := by omega, writeBufCap_eq := by omega }

theorem init_isOk (id : UInt32) (o : Obfuscator) (maxOnWireSize recvCapacity maxPendingFrames : Nat)
    (ordering : SessionOrdering) (hord : ordering ≠ .invalid)
    (hsize : frameHeaderLen + frameMaxExtraLen < maxOnWireSize)
    (hcap : maxOnWireSize - frameHeaderLen ≤ recvCapacity) :
    ∃ s, init id o maxOnWireSize recvCapacity maxPendingFrames ordering = .ok s := by
  have hpos : msgQueueLenPrefix < recvCapacity := by
    simp only [frameHeaderLen, frameMaxExtraLen, msgQueueLenPrefix] at *
    omega
  have hrecv : ∀ n, ∃ recv, initRecv recvCapacity n ordering = some recv := by
    intro n
    cases ordering with
    | invalid => exact absurd rfl hord
    | ordered =>
      obtain ⟨q, hq⟩ := ByteQueue.init_isSome (Nat.zero_lt_of_lt hpos)
      simp only [initRecv]
      split
      · next hnone => rw [hq] at hnone; cases hnone
      · exact ⟨_, rfl⟩
    | unordered =>
      obtain ⟨q, hq, _⟩ := MsgQueue.init_isSome hpos
      simp only [initRecv, hq, Option.map_some]
      exact ⟨_, rfl⟩
  obtain ⟨recv, hrecv⟩ := hrecv (if 0 < maxPendingFrames then maxPendingFrames else 1)
  unfold init
  rw [if_neg hord, dif_neg (by omega), if_neg (by omega), hrecv]
  exact ⟨_, rfl⟩

/-- Build the next frame and obfuscate it; the counter advances when that succeeds. -/
def sealFrame (evp : Evp) (s : Stream) (closing : UInt8) (payload : List UInt8)
    (draws : FrameDraws) : Stream × Option SealedFrame :=
  match Frame.obfuscate evp s.obfuscator ⟨s.id, s.nextWriteSeq, closing, payload⟩ draws
      (List.replicate s.writeBufCap 0) 0 with
  | (_, none) => (s, none)
  | (buf, some n) =>
    ({ s with nextWriteSeq := s.nextWriteSeq + 1 },
      some ⟨⟨s.id, s.nextWriteSeq, closing, payload⟩, buf.take n⟩)

def closeWrite (s : Stream) : Stream := { s with writeClosed := true }

/-- The loop of `cloak_stream_write`, on the bytes not yet sent: the stream, the frames handed to
    the sink, and whether all bytes went out. `i` numbers the frames of the call. -/
def writeLoop (evp : Evp) (env : Nat → FrameEnv) :
    (fuel : Nat) → Stream → (i : Nat) → List UInt8 → Stream × List SealedFrame × Bool
  | 0, s, _, _ => (s, [], true)
  | fuel + 1, s, i, rest =>
    if rest.length = 0 then (s, [], true)
    else
      match s.sealFrame evp closingNothing (rest.take s.maxPayloadPerFrame) (env i).draws with
      | (s', none) => (s'.closeWrite, [], false)
      | (s', some f) =>
        if (env i).sinkOk then
          ((writeLoop evp env fuel s' (i + 1) (rest.drop s.maxPayloadPerFrame)).1,
            f :: (writeLoop evp env fuel s' (i + 1) (rest.drop s.maxPayloadPerFrame)).2.1,
            (writeLoop evp env fuel s' (i + 1) (rest.drop s.maxPayloadPerFrame)).2.2)
        else (s'.closeWrite, [f], false)

/-- What `cloak_stream_write` returns: the length, `-1`, or `CLOAK_STREAM_ERR_SHORT_BUFFER`. -/
inductive WriteResult where
  | ok
  | error
  | shortBuffer
deriving DecidableEq, Repr

/-- `cloak_stream_write`. Every turn of the loop sends at least a byte, so the length is fuel. -/
def write (evp : Evp) (s : Stream) (bs : List UInt8) (env : Nat → FrameEnv) :
    Stream × List SealedFrame × WriteResult :=
  if s.writeClosed then (s, [], .error)
  else if s.isOrdered = false ∧ s.maxPayloadPerFrame < bs.length then (s, [], .shortBuffer)
  else
    ((writeLoop evp env bs.length s 0 bs).1, (writeLoop evp env bs.length s 0 bs).2.1,
      if (writeLoop evp env bs.length s 0 bs).2.2 then .ok else .error)

/-- The random payload of a closing frame: 1 to 256 bytes, clamped to what a frame may carry. -/
def closingPayload (s : Stream) (env : ClosingEnv) : List UInt8 :=
  randomBytes env.pad (min (env.lenByte.toNat + 1) (min s.maxPayloadPerFrame 256))

/-- `cloak_stream_send_closing`. -/
def sendClosing (evp : Evp) (s : Stream) (closingType : UInt8) (env : ClosingEnv) :
    Stream × List SealedFrame × Bool :=
  if s.writeClosed then (s, [], false)
  else
    match s.sealFrame evp closingType (s.closingPayload env) env.frame.draws with
    | (s', none) => (s'.closeWrite, [], false)
    | (s', some f) => (s'.closeWrite, [f], env.frame.sinkOk)

/-- `cloak_stream_feed_frame`. -/
def feedFrame (s : Stream) (frame : Frame) (allocs : FeedAllocs) : Stream × FeedResult :=
  match s.recv with
  | .unordered r => ({ s with recv := .unordered (r.feedFrame frame).1 }, (r.feedFrame frame).2)
  | .ordered r =>
    ({ s with recv := .ordered (r.feedFrame frame allocs).1 }, (r.feedFrame frame allocs).2)

/-- `cloak_stream_read`. -/
def read (s : Stream) (outCap : Nat) : Stream × ReadResult :=
  match s.recv with
  | .unordered r => ({ s with recv := .unordered (r.read outCap).1 }, (r.read outCap).2)
  | .ordered r => ({ s with recv := .ordered (r.read outCap).1 }, (r.read outCap).2)

/-! ## The parts of a stream -/

/-- What `sealFrame` changes of a stream, and what it seals. -/
theorem sealFrame_some {evp : Evp} {s s' : Stream} {closing : UInt8} {payload : List UInt8}
    {draws : FrameDraws} {f : SealedFrame}
    (h : s.sealFrame evp closing payload draws = (s', some f)) :
    s' = { s with nextWriteSeq := s.nextWriteSeq + 1 }
      ∧ f.frame = ⟨s.id, s.nextWriteSeq, closing, payload⟩ := by
  unfold sealFrame at h
  split at h
  · cases h
  · obtain ⟨rfl, hf⟩ := Prod.mk.injEq .. ▸ h
    obtain rfl := Option.some.inj hf
    exact ⟨rfl, rfl⟩

theorem sealFrame_none {evp : Evp} {s s' : Stream} {closing : UInt8} {payload : List UInt8}
    {draws : FrameDraws} (h : s.sealFrame evp closing payload draws = (s', none)) : s' = s := by
  unfold sealFrame at h
  split at h
  · exact (congrArg Prod.fst h).symm
  · cases h

/-- What reading, feeding and closing the write side leave alone. -/
structure SameWrite (st st' : Stream) : Prop where
  id : st'.id = st.id
  obfuscator : st'.obfuscator = st.obfuscator
  maxPayload : st'.maxPayloadPerFrame = st.maxPayloadPerFrame
  nextWriteSeq : st'.nextWriteSeq = st.nextWriteSeq
  recvCap : st'.recv.cap = st.recv.cap

theorem SameWrite.refl (st : Stream) : st.SameWrite st := ⟨rfl, rfl, rfl, rfl, rfl⟩

theorem sameWrite_closeWrite (st : Stream) : st.SameWrite st.closeWrite := ⟨rfl, rfl, rfl, rfl, rfl⟩

theorem sameWrite_feedFrame (st : Stream) (frame : Frame) (allocs : FeedAllocs) :
    st.SameWrite (st.feedFrame frame allocs).1 := by
  unfold feedFrame
  cases hrecv : st.recv with
  | ordered r =>
    refine ⟨rfl, rfl, rfl, rfl, ?_⟩
    simp only [Recv.cap, hrecv, OrderedRecv.cap_feedFrame]
  | unordered r =>
    refine ⟨rfl, rfl, rfl, rfl, ?_⟩
    simp only [Recv.cap, hrecv, UnorderedRecv.cap_feedFrame]

theorem sameWrite_read (st : Stream) (outCap : Nat) : st.SameWrite (st.read outCap).1 := by
  unfold read
  cases hrecv : st.recv with
  | ordered r =>
    refine ⟨rfl, rfl, rfl, rfl, ?_⟩
    simp only [Recv.cap, hrecv, OrderedRecv.cap_read]
  | unordered r =>
    refine ⟨rfl, rfl, rfl, rfl, ?_⟩
    simp only [Recv.cap, hrecv, UnorderedRecv.cap_read]

theorem writeClosed_read (st : Stream) (n : Nat) : (st.read n).1.writeClosed = st.writeClosed := by
  unfold read
  cases st.recv <;> rfl

theorem writeClosed_feedFrame (st : Stream) (frame : Frame) (allocs : FeedAllocs) :
    (st.feedFrame frame allocs).1.writeClosed = st.writeClosed := by
  unfold feedFrame
  cases st.recv <;> rfl

/-- A stream that is closed for writing takes nothing. -/
theorem write_closed {evp : Evp} {st st' : Stream} {bs : List UInt8} {env : Nat → FrameEnv}
    {sealed : List SealedFrame} {result : WriteResult} (h : st.write evp bs env = (st', sealed, result))
    (hclosed : st.writeClosed = true) : st' = st ∧ result = .error := by
  rw [write, if_pos hclosed] at h
  obtain ⟨rfl, hrest⟩ := Prod.mk.inj h
  exact ⟨rfl, (Prod.mk.inj hrest).2.symm⟩

/-- A closing frame's payload is not empty and fits a frame. -/
theorem length_closingPayload (st : Stream) (env : ClosingEnv) :
    0 < (st.closingPayload env).length
      ∧ (st.closingPayload env).length ≤ st.maxPayloadPerFrame := by
  have hpos := st.maxPayload_pos
  rw [closingPayload, length_randomBytes]
  omega

theorem cap_of_initRecv {cap n : Nat} {ordering : SessionOrdering} {recv : Recv}
    (h : initRecv cap n ordering = some recv) : recv.cap = cap := by
  unfold initRecv at h
  split at h
  · obtain ⟨q, hq, rfl⟩ := Option.map_eq_some_iff.mp h
    have hcap : msgQueueLenPrefix < cap := by
      by_contra hno
      rw [MsgQueue.init, dif_neg hno] at hq
      cases hq
    obtain ⟨q', hq', hqcap⟩ := MsgQueue.init_isSome hcap
    rw [hq] at hq'
    obtain rfl := Option.some.inj hq'
    exact hqcap
  · split at h
    · cases h
    · next q hq =>
      obtain rfl := Option.some.inj h
      exact (ByteQueue.init_spec hq).2.2

/-- What a fresh stream is. -/
theorem init_spec {id : UInt32} {o : Obfuscator} {maxOnWireSize recvCapacity maxPending : Nat}
    {ordering : SessionOrdering} {st : Stream}
    (h : init id o maxOnWireSize recvCapacity maxPending ordering = .ok st) :
    st.id = id ∧ st.obfuscator = o
      ∧ st.maxPayloadPerFrame = maxOnWireSize - frameHeaderLen - frameMaxExtraLen
      ∧ st.nextWriteSeq = 0 ∧ st.recv.cap = recvCapacity := by
  unfold init at h
  split at h
  · cases h
  · split at h
    · cases h
    · split at h
      · cases h
      · split at h
        · cases h
        · next recv hrecv =>
          cases h
          exact ⟨rfl, rfl, rfl, rfl, cap_of_initRecv hrecv⟩

end Stream

end Cloak
