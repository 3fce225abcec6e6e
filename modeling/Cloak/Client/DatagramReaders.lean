import Cloak.Mux.DgramRelay
import Cloak.Client.PeerDrain

set_option autoImplicit false

/-! # The readers of datagrams (`dgram_relay.c`, `udp_piper.c`)

Both readers have a buffer of `max_payload_per_frame` bytes, which is what one of our own frames can
carry at most, and both take a read of zero bytes for an empty queue. Neither holds for every frame
the codec accepts. A frame with less overhead than the largest carries more in the same envelope, and
a frame may carry nothing at all. -/

namespace Cloak

open Lib

variable {evp : Evp} {o : Obfuscator} {id : UInt32} {maxOnWireSize recvCapacity maxPending : Nat}
variable {st : Stream} {r : UnorderedRecv}

/-- If an envelope carries a datagram, it is as far below the limit as its overhead is below the
    largest one. -/
def Roomy (evp : Evp) (o : Obfuscator) (maxOnWireSize : Nat) (envelope : List UInt8) : Prop :=
  ∀ frame, Frame.deobfuscate evp o envelope = some frame → frame.closing = closingNothing →
    envelope.length + frameMaxExtraLen ≤ maxOnWireSize + Frame.extraLen o envelope

/-- Those are the envelopes whose datagrams fit the readers' buffers. -/
theorem carries_of_roomy {envelope : List UInt8} (hsize : frameHeaderLen + frameMaxExtraLen < maxOnWireSize)
    (h : Roomy evp o maxOnWireSize envelope) :
    UnorderedRecv.Carries evp o
      (fun m => m.length ≤ maxOnWireSize - frameHeaderLen - frameMaxExtraLen) envelope :=
  fun frame hframe hdata => (Frame.payload_le_iff hframe hsize).mpr (h frame hframe hdata)

/-- The relay's events bring only roomy envelopes. -/
def DgramRelay.Event.Roomy (evp : Evp) (o : Obfuscator) (maxOnWireSize : Nat) :
    DgramRelay.Event → Prop
  | .envelope buf => Cloak.Roomy evp o maxOnWireSize buf
  | _ => True

/-- A peer's events bring only roomy envelopes. -/
def PeerOut.Event.Roomy (evp : Evp) (o : Obfuscator) (maxOnWireSize : Nat) : PeerOut.Event → Prop
  | .envelope buf => Cloak.Roomy evp o maxOnWireSize buf
  | _ => True

theorem DgramRelay.Event.Roomy.carries {ev : DgramRelay.Event} (h : ev.Roomy evp o maxOnWireSize)
    (hsize : frameHeaderLen + frameMaxExtraLen < maxOnWireSize) :
    ev.Carries evp o fun m => m.length ≤ maxOnWireSize - frameHeaderLen - frameMaxExtraLen := by
  cases ev with
  | envelope buf => exact carries_of_roomy hsize h
  | _ => exact trivial

theorem PeerOut.Event.Roomy.carries {ev : PeerOut.Event} (h : ev.Roomy evp o maxOnWireSize)
    (hsize : frameHeaderLen + frameMaxExtraLen < maxOnWireSize) :
    ev.Carries evp o fun m => m.length ≤ maxOnWireSize - frameHeaderLen - frameMaxExtraLen := by
  cases ev with
  | envelope buf => exact carries_of_roomy hsize h
  | _ => exact trivial

/-! ## Envelopes by hand -/

/-- The obfuscator of an unencrypted session. -/
def plainObfuscator : Obfuscator := ⟨.none, List.replicate 32 0, rfl⟩

/-- What an unencrypted frame on stream 1 looks like before its header is encrypted, with the least
    overhead such a frame can claim. -/
def plainEnvelope (payload : List UInt8) : List UInt8 :=
  [0, 0, 0, 1, 0, 0, 0, 0, 0, 0, 0, 0, 0, 8] ++ (payload ++ List.replicate 8 0)

theorem length_plainEnvelope (payload : List UInt8) :
    (plainEnvelope payload).length = payload.length + 22 := by
  simp only [plainEnvelope, List.length_append, List.length_replicate, List.length_cons,
    List.length_nil]
  omega

theorem parse_plainEnvelope (evp : Evp) (payload : List UInt8) :
    Frame.parse evp plainObfuscator (plainEnvelope payload)
      = some ⟨1, 0, closingNothing, payload⟩ := by
  have hextra : ((plainEnvelope payload).getD 13 0).toNat = 8 := rfl
  have hbody : slice (plainEnvelope payload) frameHeaderLen payload.length = payload :=
    slice_append_middle _ rfl rfl
  have htag : tagLenForMethod plainObfuscator.method = 8 := rfl
  rw [Frame.parse, hextra, htag, length_plainEnvelope, if_neg (by omega),
    if_neg (by unfold frameHeaderLen; omega), Frame.openBody,
    if_pos (show plainObfuscator.method = .none from rfl),
    show payload.length + 22 - frameHeaderLen - 8 = payload.length by unfold frameHeaderLen; omega,
    hbody]
  rfl

/-- That envelope on the wire. -/
def leanEnvelope (payload : List UInt8) : List UInt8 :=
  Frame.xorHeader plainObfuscator (plainEnvelope payload) (plainEnvelope payload).length

theorem length_leanEnvelope (payload : List UInt8) :
    (leanEnvelope payload).length = payload.length + 22 := by
  have hlen := length_plainEnvelope payload
  rw [leanEnvelope, Frame.length_xorHeader _ _ _ (by rw [hlen]; unfold frameHeaderLen; omega), hlen]

theorem extraLen_leanEnvelope (payload : List UInt8) :
    Frame.extraLen plainObfuscator (leanEnvelope payload) = 8 :=
  (Frame.deobfuscate_xorHeader .plain plainObfuscator (plainEnvelope payload) (by
    rw [length_plainEnvelope]; unfold frameHeaderLen salsa20NonceLen; omega)).2

theorem deobfuscate_leanEnvelope (evp : Evp) (payload : List UInt8) :
    Frame.deobfuscate evp plainObfuscator (leanEnvelope payload)
      = some ⟨1, 0, closingNothing, payload⟩ := by
  have hlen := length_plainEnvelope payload
  rw [leanEnvelope, (Frame.deobfuscate_xorHeader evp _ _ (by
    rw [hlen]; unfold frameHeaderLen salsa20NonceLen; omega)).1, parse_plainEnvelope]

theorem feedEnvelope_lean (evp : Evp) (r : UnorderedRecv) (payload : List UInt8) :
    r.feedEnvelope evp plainObfuscator (leanEnvelope payload)
      = (r.feedFrame ⟨1, 0, closingNothing, payload⟩).1 := by
  rw [UnorderedRecv.feedEnvelope, deobfuscate_leanEnvelope]

/-! ## Datagrams that are too long -/

/-- An accepted envelope's payload is at most one frame's of ours exactly if the envelope is roomy,
    and in a run of a reader on a stream that gets no other, every queued datagram fits and no read
    finds the buffer short. -/
theorem datagrams_deliverable (evp : Evp)
    (hinit : Stream.init id o maxOnWireSize recvCapacity maxPending .unordered = .ok st)
    (hrecv : st.recv = .unordered r) :
    (∀ envelope frame, envelope.length ≤ maxOnWireSize →
        Frame.deobfuscate evp o envelope = some frame →
        (frame.payload.length ≤ st.maxPayloadPerFrame
          ↔ envelope.length + frameMaxExtraLen ≤ maxOnWireSize + Frame.extraLen o envelope))
      ∧ (∀ before sends timerOk (evs : List DgramRelay.Event),
        (∀ e ∈ before, Roomy evp o maxOnWireSize e) → (∀ ev ∈ evs, ev.Roomy evp o maxOnWireSize) →
        ∀ sr, sr = (DgramRelay.start (r.feedEnvelopes evp o before) st.maxPayloadPerFrame sends
          timerOk).after evp o evs →
        sr.stream.Queues (fun m => m.length ≤ st.maxPayloadPerFrame) ∧ sr.shortReads = 0)
      ∧ ∀ evs : List PeerOut.Event, (∀ ev ∈ evs, ev.Roomy evp o maxOnWireSize) →
        ∀ peer, peer = (PeerOut.create r st.maxPayloadPerFrame).after evp o evs →
        peer.stream.Queues (fun m => m.length ≤ st.maxPayloadPerFrame) ∧ peer.shortReads = 0 := by
  obtain ⟨hsize, hmax, r', hrecv', hempty, _⟩ := Stream.init_unordered hinit
  rw [hrecv] at hrecv'
  obtain rfl := Recv.unordered.inj hrecv'
  rw [hmax]
  refine ⟨fun envelope frame _ hframe => Frame.payload_le_iff hframe hsize, ?_, ?_⟩
  · rintro before sends timerOk evs hbefore hevs sr rfl
    have hfed := (UnorderedRecv.Queues.of_nil hempty).feedEnvelopes
      fun e he => carries_of_roomy hsize (hbefore e he)
    have hsound := (DgramRelay.Sound.start hfed (maxOnWireSize - frameHeaderLen - frameMaxExtraLen)
      sends timerOk).after
      fun ev hev => (hevs ev hev).carries hsize
    exact ⟨hsound.queue, hsound.shortReads fun _ hm => hm⟩
  · rintro evs hevs peer rfl
    have hsound := (PeerOut.Sound.create (UnorderedRecv.Queues.of_nil hempty)
      (maxOnWireSize - frameHeaderLen - frameMaxExtraLen)).after
      fun ev hev => (hevs ev hev).carries hsize
    exact ⟨hsound.queue, hsound.shortReads fun _ hm => hm⟩

/-- Such an envelope with one byte is as long as it may be. -/
theorem lean_envelope_deliverable : ∃ st r,
    Stream.init 1 plainObfuscator 270 256 1 .unordered = .ok st ∧ st.recv = .unordered r ∧
    ((DgramRelay.start (r.feedEnvelopes .plain plainObfuscator [leanEnvelope [9]])
      st.maxPayloadPerFrame (fun _ => .sent) true).after .plain plainObfuscator
        [.envelope (leanEnvelope [8]), .streamData fun _ => .sent]).shortReads = 0 := by
  obtain ⟨st, hst⟩ := Stream.init_isOk 1 plainObfuscator 270 256 1 .unordered (by decide) (by decide)
    (by decide)
  obtain ⟨_, _, r, hrecv, _⟩ := Stream.init_unordered hst
  have hroomy : ∀ b, Roomy .plain plainObfuscator 270 (leanEnvelope [b]) := fun b _ _ _ => by
    rw [length_leanEnvelope, extraLen_leanEnvelope]
    exact Nat.le_refl _
  refine ⟨st, r, hst, hrecv, ?_⟩
  exact ((datagrams_deliverable .plain hst hrecv).2.1 [leanEnvelope [9]] (fun _ => .sent) true
    [.envelope (leanEnvelope [8]), .streamData fun _ => .sent]
    (by simpa using hroomy 9) (by simpa using ⟨hroomy 8, trivial⟩) _ rfl).2

/-- With room for one byte a frame, two bytes come in an envelope far below the limit, and both
    readers find them too long. -/
theorem lean_envelope_undeliverable : ∃ st r,
    Stream.init 1 plainObfuscator 270 256 1 .unordered = .ok st ∧ st.recv = .unordered r ∧
    (leanEnvelope [1, 2]).length ≤ 270 ∧
    Frame.deobfuscate .plain plainObfuscator (leanEnvelope [1, 2])
      = some ⟨1, 0, closingNothing, [1, 2]⟩ ∧
    (r.feedEnvelope .plain plainObfuscator (leanEnvelope [1, 2])).Holds [[1, 2]] ∧
    ¬ [(1 : UInt8), 2].length ≤ st.maxPayloadPerFrame ∧
    (DgramRelay.start (r.feedEnvelope .plain plainObfuscator (leanEnvelope [1, 2]))
      st.maxPayloadPerFrame (fun _ => .sent) true).shortReads = 1 ∧
    ((PeerOut.create r st.maxPayloadPerFrame).after .plain plainObfuscator
      [.envelope (leanEnvelope [1, 2]), .streamData (.sent 0) fun _ => .sent 0]).shortReads = 1 := by
  obtain ⟨st, hst⟩ := Stream.init_isOk 1 plainObfuscator 270 256 1 .unordered (by decide) (by decide)
    (by decide)
  obtain ⟨_, hmax, r, hrecv, hempty, hopen, hcap⟩ := Stream.init_unordered hst
  have hmax : st.maxPayloadPerFrame = 1 := hmax
  have hfed := hempty.feedFrame_data ⟨1, 0, closingNothing, [1, 2]⟩ hopen rfl (by decide)
    (by rw [hcap]; decide)
  refine ⟨st, r, hst, hrecv, ?_, deobfuscate_leanEnvelope _ _, ?_, by rw [hmax]; decide, ?_, ?_⟩
  · rw [length_leanEnvelope]
    decide
  · rw [feedEnvelope_lean]
    exact hfed
  · rw [feedEnvelope_lean, hmax, DgramRelay.start, DgramRelay.pumpStreamToFd,
      DgramRelay.pumpLoop_sent_succ _ _ rfl, DgramRelay.fill_short hfed Nat.one_lt_two]
    rfl
  · rw [hmax]
    simp only [PeerOut.after, run, List.foldl_cons, List.foldl_nil, PeerOut.step, PeerOut.create,
      feedEnvelope_lean]
    rw [PeerOut.drain, if_neg Bool.false_ne_true, PeerOut.flush, if_pos rfl]
    simp only
    rw [PeerOut.drainLoop_succ, hfed.read_short Nat.one_lt_two]

/-! ## Datagrams behind an empty one -/

/-- In every state either reader reaches, a pass that ends with nothing in hand leaves the queue
    empty: for the relay exactly if no empty datagram stands before another one, as far as it can
    read, for a peer exactly if in addition everything queued fits its buffer. -/
theorem idle_means_empty (evp : Evp)
    (hinit : Stream.init id o maxOnWireSize recvCapacity maxPending .unordered = .ok st)
    (hrecv : st.recv = .unordered r) :
    (∀ before sends timerOk (evs : List DgramRelay.Event),
        ∀ sr, sr = (DgramRelay.start (r.feedEnvelopes evp o before) st.maxPayloadPerFrame sends
          timerOk).after evp o evs →
        ∃ ms, sr.stream.Holds ms ∧
          ((∀ sends, (sr.pumpStreamToFd sends).2 = true → (sr.pumpStreamToFd sends).1.pending = [] →
              (sr.pumpStreamToFd sends).1.stream.recvMsgs.count = 0)
            ↔ (sr.streamEnded = false → DgramRelay.NoneBehindEmpty sr.pendingCap ms)))
      ∧ ∀ evs : List PeerOut.Event,
        ∀ peer, peer = (PeerOut.create r st.maxPayloadPerFrame).after evp o evs →
        ∃ ms, peer.stream.Holds ms ∧
          ((∀ first sends, (peer.drain first sends).retired = false →
              (peer.drain first sends).out = [] →
              (peer.drain first sends).stream.recvMsgs.count = 0)
            ↔ (peer.retired = false → PeerOut.Drainable peer.outCap ms)) := by
  obtain ⟨_, _, r', hrecv', hempty, _⟩ := Stream.init_unordered hinit
  rw [hrecv] at hrecv'
  obtain rfl := Recv.unordered.inj hrecv'
  have hqueue : r.Queues fun _ => True := .of_nil hempty
  constructor
  · rintro before sends timerOk evs sr rfl
    have hfed : (r.feedEnvelopes evp o before).Queues fun _ => True :=
      hqueue.feedEnvelopes fun _ _ _ _ _ => trivial
    have hany : ∀ ev ∈ evs, ev.Carries evp o fun _ => True := fun ev _ => ev.carries_any
    obtain ⟨ms, hms, _⟩ :=
      ((DgramRelay.Sound.start hfed st.maxPayloadPerFrame sends timerOk).after hany).queue
    exact ⟨ms, hms, DgramRelay.drains_iff hms⟩
  · rintro evs peer rfl
    have hany : ∀ ev ∈ evs, ev.Carries evp o fun _ => True := fun ev _ => ev.carries_any
    obtain ⟨ms, hms, _⟩ := ((PeerOut.Sound.create hqueue st.maxPayloadPerFrame).after hany).queue
    exact ⟨ms, hms, PeerOut.drains_iff hms⟩

/-- A relay that has got one datagram. -/
theorem idle_means_empty_lean : ∃ st r sr ms,
    Stream.init 1 plainObfuscator 270 256 1 .unordered = .ok st ∧ st.recv = .unordered r ∧
    sr = (DgramRelay.start (r.feedEnvelopes .plain plainObfuscator []) st.maxPayloadPerFrame
      (fun _ => .sent) true).after .plain plainObfuscator [.envelope (leanEnvelope [9])] ∧
    sr.stream.Holds ms ∧
    ((∀ sends, (sr.pumpStreamToFd sends).2 = true → (sr.pumpStreamToFd sends).1.pending = [] →
        (sr.pumpStreamToFd sends).1.stream.recvMsgs.count = 0)
      ↔ (sr.streamEnded = false → DgramRelay.NoneBehindEmpty sr.pendingCap ms)) := by
  obtain ⟨st, hst⟩ := Stream.init_isOk 1 plainObfuscator 270 256 1 .unordered (by decide) (by decide)
    (by decide)
  obtain ⟨_, _, r, hrecv, _⟩ := Stream.init_unordered hst
  obtain ⟨ms, hms, hiff⟩ := (idle_means_empty .plain hst hrecv).1 [] (fun _ => .sent) true
    [.envelope (leanEnvelope [9])] _ rfl
  exact ⟨st, r, _, ms, hst, hrecv, rfl, hms, hiff⟩

/-- An empty datagram and one with a byte in it: both readers stop behind the first. -/
theorem datagram_stranded : ∃ st r sr peer,
    Stream.init 1 plainObfuscator 270 256 1 .unordered = .ok st ∧ st.recv = .unordered r ∧
    (∀ payload ∈ [[], [7]], Frame.deobfuscate .plain plainObfuscator (leanEnvelope payload)
      = some ⟨1, 0, closingNothing, payload⟩) ∧
    sr = (DgramRelay.start r st.maxPayloadPerFrame (fun _ => .sent) true).after .plain
      plainObfuscator [.envelope (leanEnvelope []), .envelope (leanEnvelope [7])] ∧
    (sr.pumpStreamToFd fun _ => .sent).2 = true ∧ (sr.pumpStreamToFd fun _ => .sent).1.pending = [] ∧
    (sr.pumpStreamToFd fun _ => .sent).1.stream.recvMsgs.count = 1 ∧
    peer = (PeerOut.create r st.maxPayloadPerFrame).after .plain plainObfuscator
      [.envelope (leanEnvelope []), .envelope (leanEnvelope [7])] ∧
    (peer.drain (.sent 0) fun _ => .sent 0).retired = false ∧
    (peer.drain (.sent 0) fun _ => .sent 0).out = [] ∧
    (peer.drain (.sent 0) fun _ => .sent 0).stream.recvMsgs.count = 1 := by
  obtain ⟨st, hst⟩ := Stream.init_isOk 1 plainObfuscator 270 256 1 .unordered (by decide) (by decide)
    (by decide)
  obtain ⟨_, _, r, hrecv, hempty, hopen, hcap⟩ := Stream.init_unordered hst
  have hfirst := hempty.feedFrame_data ⟨1, 0, closingNothing, []⟩ hopen rfl (by decide)
    (by rw [hcap]; decide)
  have hfed := hfirst.feedFrame_data ⟨1, 0, closingNothing, [7]⟩
    (by rw [UnorderedRecv.seen_feedFrame rfl, hopen]) rfl (by decide)
    (by rw [UnorderedRecv.cap_feedFrame, hcap]; decide)
  have hsr : ((DgramRelay.start r st.maxPayloadPerFrame (fun _ => .sent) true).after .plain
      plainObfuscator [.envelope (leanEnvelope []), .envelope (leanEnvelope [7])]).stream.Holds
        [[], [7]] := by
    rw [DgramRelay.start_nil hempty hopen]
    simp only [DgramRelay.after, run, List.foldl_cons, List.foldl_nil, DgramRelay.step,
      feedEnvelope_lean]
    exact hfed
  have hpeer : ((PeerOut.create r st.maxPayloadPerFrame).after .plain plainObfuscator
      [.envelope (leanEnvelope []), .envelope (leanEnvelope [7])]).stream.Holds [[], [7]] := by
    simp only [PeerOut.after, run, List.foldl_cons, List.foldl_nil, PeerOut.step, PeerOut.create,
      feedEnvelope_lean]
    exact hfed
  obtain ⟨hok, hnone, hrest⟩ := DgramRelay.pump_empty hsr
    (by rw [DgramRelay.start_nil hempty hopen]; rfl) (by rw [DgramRelay.start_nil hempty hopen]; rfl)
    fun _ => .sent
  obtain ⟨hlive, hout, hleft⟩ := PeerOut.drain_empty hpeer rfl rfl (.sent 0) fun _ => .sent 0
  exact ⟨st, r, _, _, hst, hrecv, fun payload _ => deobfuscate_leanEnvelope _ _, rfl, hok, hnone,
    hrest.msgs.count, rfl, hlive, hout, hleft.msgs.count⟩

end Cloak
