import Cloak.Mux.SessionMoves

set_option autoImplicit false

/-! # The size chain of a session

`max_on_wire_size` bounds what a session sends and what its streams can take in, through checks in
four files: `cloak_session_init` and `cloak_stream_init` on the configuration, the payload limit of a
stream with the clamps of both closing frames, the buffer checks of the codec, and the capacity
checks of the two receive queues. Here they are put together. On the way out a stream's payload limit
leaves room for the header and the largest padding, so sealing never fails and the result fits. On
the way in the header and the smallest tag are gone from the payload, which leaves room for the
length prefix of the message queue. -/

namespace Cloak

open Lib

/-- The receive side has the capacity for a payload: the ordered check against the whole ring
    passes, and the unordered queue does not answer `CLOAK_MSGQUEUE_ERR_TOO_LARGE`. -/
def Recv.Fits (recv : Recv) (payload : List UInt8) : Prop :=
  match recv with
  | .ordered r => payload.length ≤ r.recvBytes.len + r.recvBytes.freeSpace
  | .unordered r => (r.recvMsgs.write payload).2 ≠ .tooLarge

/-- The two checks on which `cloak_conn_send` breaks a connection for the size of a frame. -/
def Conn.Oversized (c : Conn) (frame : List UInt8) : Prop :=
  c.maxFrameLen < frame.length
    ∨ c.framing = .tlsRecord ∧ c.envelopeLen c.maxFrameLen < connRecordHeaderLen + frame.length

/-- A stream with the sizes its session gives it. -/
structure Stream.SizedFor (c : SessionConfig) (st : Stream) : Prop where
  obfuscator : st.obfuscator = c.obfuscator
  maxPayload : st.maxPayloadPerFrame = c.maxOnWireSize - frameHeaderLen - frameMaxExtraLen
  recvCap : st.recv.cap = c.streamRecvCapacity

namespace Session

theorem sizedFor_initStream {c : SessionConfig} {id : UInt32} {st : Stream}
    (h : initStream c id = .ok st) : st.SizedFor c := by
  obtain ⟨_, hobf, hmax, _, hcap⟩ := Stream.init_spec h
  exact ⟨hobf, hmax, hcap⟩

theorem sizedFor_sameWrite {c : SessionConfig} {st st' : Stream} (h : st.SizedFor c)
    (hsame : st.SameWrite st') : st'.SizedFor c :=
  ⟨by rw [hsame.obfuscator, h.obfuscator], by rw [hsame.maxPayload, h.maxPayload],
    by rw [hsame.recvCap, h.recvCap]⟩

theorem accepted_of_init {c : SessionConfig} {s : Session} (h : init c = .ok s) : c.Accepted := by
  unfold init at h
  split at h
  · cases h
  · next hord =>
    split at h
    · cases h
    · next hsizes => exact ⟨hord, hsizes⟩

/-! ## On the way out -/

/-- A frame within the payload limit is sealed, and fits. -/
theorem sealFrame_sized {evp : Evp} (hevp : evp.Lawful) {c : SessionConfig} (hc : c.Accepted)
    {st : Stream} (hst : st.SizedFor c) (closing : UInt8) (payload : List UInt8) (draws : FrameDraws)
    (hpos : 0 < payload.length) (hle : payload.length ≤ st.maxPayloadPerFrame) :
    ∃ st' f, st.sealFrame evp closing payload draws = (st', some f)
      ∧ f.wire.length
        = Frame.usefulLen st.obfuscator ⟨st.id, st.nextWriteSeq, closing, payload⟩ draws
      ∧ f.wire.length ≤ c.maxOnWireSize := by
  have huse := Frame.usefulLen_le st.obfuscator ⟨st.id, st.nextWriteSeq, closing, payload⟩ draws
  have hbuf := st.writeBufCap_eq
  have hmax := hst.maxPayload
  have hsize : frameHeaderLen + frameMaxExtraLen < c.maxOnWireSize :=
    Nat.not_le.mp fun hbad => hc.2 (Or.inl hbad)
  dsimp only at huse
  obtain ⟨out, hlen, hout⟩ := Frame.obfuscate_eq_some hevp st.obfuscator
    ⟨st.id, st.nextWriteSeq, closing, payload⟩ draws (List.replicate st.writeBufCap 0) 0 hpos
    (by rw [List.length_replicate]; omega) (fun h => absurd h (by decide))
  rw [List.length_replicate] at hlen
  have hwire : (out.take (Frame.usefulLen st.obfuscator
      ⟨st.id, st.nextWriteSeq, closing, payload⟩ draws)).length
      = Frame.usefulLen st.obfuscator ⟨st.id, st.nextWriteSeq, closing, payload⟩ draws := by
    rw [List.length_take]
    omega
  exact ⟨{ st with nextWriteSeq := st.nextWriteSeq + 1 }, _, by rw [Stream.sealFrame, hout], hwire,
    by rw [hwire]; omega⟩

/-- The session-closing frame is sealed, and fits. -/
theorem sealClosing_sized {evp : Evp} (hevp : evp.Lawful) {c : SessionConfig} (hc : c.Accepted)
    (env : ClosingEnv) :
    ∃ f, sealClosing evp c env = some f ∧ f.wire.length ≤ c.maxOnWireSize := by
  have hsize : frameHeaderLen + frameMaxExtraLen < c.maxOnWireSize :=
    Nat.not_le.mp fun hbad => hc.2 (Or.inl hbad)
  have hpay : (closingFrame c env).payload.length = min (env.lenByte.toNat + 1)
      (min (c.maxOnWireSize - frameHeaderLen - frameMaxExtraLen) 256) := by
    rw [closingFrame, closingPayload, length_randomBytes]
  have huse := Frame.usefulLen_le c.obfuscator (closingFrame c env) env.frame.draws
  obtain ⟨out, _, hout⟩ := Frame.obfuscate_eq_some hevp c.obfuscator (closingFrame c env)
    env.frame.draws (List.replicate (frameHeaderLen + 256 + frameMaxExtraLen) 0) 0
    (by rw [hpay]; omega) (by rw [List.length_replicate]; omega) (fun h => absurd h (by decide))
  refine ⟨⟨closingFrame c env, out.take (Frame.usefulLen c.obfuscator (closingFrame c env)
    env.frame.draws)⟩, ?_, ?_⟩
  · unfold sealClosing
    rw [hout]
  · have hfit : Frame.usefulLen c.obfuscator (closingFrame c env) env.frame.draws
        ≤ c.maxOnWireSize := by omega
    exact Nat.le_trans (List.length_take_le _ _) hfit

/-- What the size chain keeps along a run. -/
structure Sized (c : SessionConfig) (s : Session) : Prop where
  config : s.config = c
  streams : ∀ e, some e ∈ s.heap → e.stream.SizedFor c
  sealed : ∀ f ∈ s.sealed, f.wire.length ≤ c.maxOnWireSize
  noFailure : s.sealFailures = 0

theorem mem_heap_of_entry {s : Session} {h : StreamHandle} {e : StreamEntry}
    (he : s.entry h = some e) : some e ∈ s.heap := by
  have hlt := lt_length_of_entry he
  rw [entry, List.getD_eq_getElem _ _ hlt] at he
  rw [← he]
  exact List.getElem_mem hlt

theorem Sized.streams_set {c : SessionConfig} {s : Session} (hs : s.Sized c) (h : StreamHandle)
    {o : Option StreamEntry} (ho : ∀ e, o = some e → e.stream.SizedFor c) :
    ∀ e, some e ∈ s.heap.set h o → e.stream.SizedFor c := by
  intro e he
  rcases List.mem_or_eq_of_mem_set he with hmem | heq
  · exact hs.streams e hmem
  · exact ho e heq.symm

theorem Sized.streams_append {c : SessionConfig} {s : Session} (hs : s.Sized c) {id : UInt32}
    {st : Stream} (hst : initStream s.config id = .ok st) :
    ∀ e, some e ∈ s.heap ++ [some ⟨st, false⟩] → e.stream.SizedFor c := by
  intro e he
  rcases List.mem_append.mp he with hmem | hmem
  · exact hs.streams e hmem
  · rw [List.mem_singleton] at hmem
    obtain rfl := Option.some.inj hmem
    rw [hs.config] at hst
    exact sizedFor_initStream hst

theorem Sized.sealed_append {c : SessionConfig} {s : Session} (hs : s.Sized c) {f : SealedFrame}
    (hf : f.wire.length ≤ c.maxOnWireSize) :
    ∀ f' ∈ s.sealed ++ [f], f'.wire.length ≤ c.maxOnWireSize := by
  intro f' hf'
  rcases List.mem_append.mp hf' with hmem | hmem
  · exact hs.sealed f' hmem
  · rw [List.mem_singleton.mp hmem]
    exact hf

theorem sized_move {evp : Evp} (hevp : evp.Lawful) {c : SessionConfig} (hc : c.Accepted)
    {s₀ : Session} {ev : SessionEv} (s s' : Session) (hmove : Move evp s₀ ev s s') (hs : s.Sized c) :
    s'.Sized c := by
  cases hmove with
  | untracked hu =>
    exact ⟨by rw [hu.config, hs.config], by rw [hu.heap]; exact hs.streams,
      by rw [hu.sealed]; exact hs.sealed, by rw [hu.sealFailures, hs.noFailure]⟩
  | touch retired he hsame =>
    refine ⟨hs.config, hs.streams_set _ fun e' he' => ?_, hs.sealed, hs.noFailure⟩
    obtain rfl := Option.some.inj he'
    exact sizedFor_sameWrite (hs.streams _ (mem_heap_of_entry he)) hsame
  | @sealed h e st f closing payload draws he hpos hle hseal =>
    have hst := hs.streams _ (mem_heap_of_entry he)
    obtain ⟨st', f', hsome, _, hwire⟩ := sealFrame_sized hevp hc hst closing payload draws hpos hle
    rw [hseal] at hsome
    obtain ⟨rfl, hf⟩ := Prod.mk.inj hsome
    obtain rfl := Option.some.inj hf
    obtain ⟨rfl, _⟩ := Stream.sealFrame_some hseal
    refine ⟨hs.config, hs.streams_set _ fun e' he' => ?_, hs.sealed_append hwire, hs.noFailure⟩
    obtain rfl := Option.some.inj he'
    exact ⟨hst.obfuscator, hst.maxPayload, hst.recvCap⟩
  | @sealFailed h e st closing payload draws he hpos hle hseal =>
    have hst := hs.streams _ (mem_heap_of_entry he)
    obtain ⟨_, _, hsome, _⟩ := sealFrame_sized hevp hc hst closing payload draws hpos hle
    rw [hseal] at hsome
    cases hsome
  | @closing env f _ hseal =>
    obtain ⟨f', hsome, hwire⟩ := sealClosing_sized hevp hc env
    rw [hs.config, hsome] at hseal
    obtain rfl := Option.some.inj hseal
    exact ⟨hs.config, hs.streams, hs.sealed_append hwire, hs.noFailure⟩
  | @closingFailed env _ hseal =>
    obtain ⟨_, hsome, _⟩ := sealClosing_sized hevp hc env
    rw [hs.config, hsome] at hseal
    cases hseal
  | opened _ _ hst _ => exact ⟨hs.config, hs.streams_append hst, hs.sealed, hs.noFailure⟩
  | drew => exact ⟨hs.config, hs.streams, hs.sealed, hs.noFailure⟩
  | accepted _ _ _ hst _ => exact ⟨hs.config, hs.streams_append hst, hs.sealed, hs.noFailure⟩
  | regrown => exact ⟨hs.config, hs.streams, hs.sealed, hs.noFailure⟩
  | bury => exact ⟨hs.config, hs.streams, hs.sealed, hs.noFailure⟩
  | freed => exact ⟨hs.config, hs.streams_set _ (fun e he => by cases he), hs.sealed, hs.noFailure⟩
  | routed => exact ⟨hs.config, hs.streams, hs.sealed, hs.noFailure⟩
  | brokenUp => exact ⟨hs.config, hs.streams, hs.sealed, hs.noFailure⟩

theorem sized_init {c : SessionConfig} {s : Session} (h : init c = .ok s) : s.Sized c := by
  unfold init at h
  split at h
  · cases h
  · split at h
    · cases h
    · cases h
      exact ⟨rfl, fun e he => absurd he List.not_mem_nil, fun f hf => absurd hf List.not_mem_nil, rfl⟩

/-! ## On the way in -/

/-- The payload of an envelope within the limit has room in both kinds of queue. -/
theorem fits_of_deobfuscate {evp : Evp} {c : SessionConfig} (hc : c.Accepted) {bytes : List UInt8}
    {frame : Frame} (hlen : bytes.length ≤ c.maxOnWireSize)
    (h : Frame.deobfuscate evp c.obfuscator bytes = some frame) {st : Stream}
    (hst : st.SizedFor c) : st.recv.Fits frame.payload := by
  have hpay := Frame.length_payload_deobfuscate h
  have htag := (Frame.tagLenForMethod_bounds c.obfuscator.method).1
  have hcap : c.maxOnWireSize - frameHeaderLen ≤ c.streamRecvCapacity :=
    Nat.not_lt.mp fun hbad => hc.2 (Or.inr (Or.inr (Or.inl hbad)))
  have hmax : c.maxOnWireSize ≤ connMaxFrameLen :=
    Nat.not_lt.mp fun hbad => hc.2 (Or.inr (Or.inr (Or.inr (Or.inr hbad))))
  have hrecv := hst.recvCap
  unfold Recv.Fits
  cases hr : st.recv with
  | ordered r =>
    rw [hr] at hrecv
    change r.recvBytes.cap = _ at hrecv
    have := r.recvBytes.len_le_cap
    simp only [ByteQueue.freeSpace]
    omega
  | unordered r =>
    rw [hr] at hrecv
    change r.recvMsgs.cap = _ at hrecv
    have h8 : salsa20NonceLen = 8 := rfl
    have h4 : msgQueueLenPrefix = 4 := rfl
    have h16640 : connMaxFrameLen = 16640 := rfl
    exact MsgQueue.write_ne_tooLarge _ _ (by omega) (by omega)

/-! ## Both ways -/

/-- For every accepted configuration and every run: no seal ever fails, every sealed frame is at
    most `max_on_wire_size` bytes and so never too large for a connection of the session, and the
    payload of every envelope of at most that size has room in every stream, present or new. -/
theorem session_size_chain (evp : Evp) (hevp : evp.Lawful) (c : SessionConfig) (s₀ : Session)
    (hinit : init c = .ok s₀) (es : List SessionEv) :
    (run (step evp) s₀ es).sealFailures = 0
      ∧ (∀ f ∈ (run (step evp) s₀ es).sealed, f.wire.length ≤ c.maxOnWireSize
        ∧ ∀ conn : Conn, conn.maxFrameLen = c.maxOnWireSize → ¬ conn.Oversized f.wire)
      ∧ ∀ bytes frame, bytes.length ≤ c.maxOnWireSize →
        Frame.deobfuscate evp c.obfuscator bytes = some frame →
        (∀ h e, (run (step evp) s₀ es).entry h = some e → e.stream.recv.Fits frame.payload)
          ∧ ∀ id st, initStream c id = .ok st → st.recv.Fits frame.payload := by
  have hc := accepted_of_init hinit
  have hsized : (run (step evp) s₀ es).Sized c :=
    run_invariant (sized_init hinit) (fun s ev hs => step_invariant (sized_move hevp hc) hs) es
  refine ⟨hsized.noFailure, fun f hf => ⟨hsized.sealed f hf, fun conn hconn => ?_⟩, ?_⟩
  · have hwire := hsized.sealed f hf
    rintro (hbig | ⟨hfr, hbig⟩)
    · omega
    · rw [Conn.envelopeLen, hfr] at hbig
      change connRecordHeaderLen + _ < _ at hbig
      omega
  · intro bytes frame hlen hdeob
    exact ⟨fun h e he => fits_of_deobfuscate hc hlen hdeob (hsized.streams e (mem_heap_of_entry he)),
      fun id st hst => fits_of_deobfuscate hc hlen hdeob (sizedFor_initStream hst)⟩

/-- The smallest configuration: one stream writes two bytes as two frames, and the session closes. -/
theorem session_size_chain_smallest : ∃ s₀,
    init ⟨.ordered, ⟨.none, List.replicate 32 0, rfl⟩, 270, 256, 8, 275⟩ = .ok s₀
      ∧ ∀ f ∈ (run (step Evp.plain) s₀ [.openStream ⟨true, true, true⟩,
          .write 0 [1, 2] ⟨0, fun _ => 0⟩, .sinkReturn true ⟨0, fun _ => 0⟩,
          .sinkReturn true ⟨0, fun _ => 0⟩,
          .close ⟨0, fun _ => 0, ⟨⟨0, fun _ => 0⟩, true⟩⟩]).sealed, f.wire.length ≤ 270 :=
  ⟨_, rfl, fun f hf => ((session_size_chain Evp.plain Evp.plain_lawful
    ⟨.ordered, ⟨.none, List.replicate 32 0, rfl⟩, 270, 256, 8, 275⟩ _ rfl _).2.1 f hf).1⟩

end Session

end Cloak
