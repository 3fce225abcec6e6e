import Mathlib
import Cloak.Lib.Slice
import Cloak.Lib.BigEndian
import Cloak.Common.Crypto
import Cloak.Common.Random

set_option autoImplicit false

/-! # The frame codec (`frame.c`)

A frame on the wire is a 14-byte header, the payload, random padding and a tag:

    stream_id(4) seq(8) closing(1) extra_len(1) | payload | padding | tag

`extra_len` counts padding and tag together. The payload and the padding are sealed in place under
the nonce `stream_id ‖ seq`; the header is then XORed in place with a Salsa20 keystream whose nonce
is the last eight bytes of that same buffer. `obfuscate` writes into the caller's buffer step by
step as the C does, each step a patch of it, and `deobfuscate` reads the wire bytes back.

The proofs describe the buffer after each step by its slices (`Laid`): the header, the payload and
the filler first, then header and sealed body, then encrypted header and body. -/

namespace Cloak

open Lib

/-- `CLOAK_FRAME_HEADER_LEN`. -/
def frameHeaderLen : Nat := 14

/-- `CLOAK_FRAME_MAX_EXTRA_LEN`. -/
def frameMaxExtraLen : Nat := 255

/-- `CLOAK_FRAME_PAD_FIRST_N_FRAMES`. -/
def framePadFirstNFrames : Nat := 5

/-- `CLOAK_FRAME_CLOSING_NOTHING`, `_STREAM` and `_SESSION`. -/
def closingNothing : UInt8 := 0
def closingStream : UInt8 := 1
def closingSession : UInt8 := 2

/-- `cloak_frame_t`. The sequence number is a 64-bit counter from 0 that no run can exhaust; it is
    a `Nat` here, and the codec keeps its low 64 bits. -/
structure Frame where
  streamId : UInt32
  seq : Nat
  closing : UInt8
  payload : List UInt8
deriving DecidableEq, Repr

/-- `cloak_obfuscator_t`, with a 32-byte session key. -/
structure Obfuscator where
  method : AeadMethod
  sessionKey : List UInt8
  key_length : sessionKey.length = 32
deriving DecidableEq

theorem length_zeroKey : (List.replicate 32 (0 : UInt8)).length = 32 := rfl

/-- The random values one call of `cloak_frame_obfuscate` draws: the word behind the padding length
    and the filler bytes. -/
structure FrameDraws where
  pad : UInt32
  filler : Nat → UInt8

/-- `tag_len_for_method`: the bytes kept behind payload and padding. -/
def tagLenForMethod (m : AeadMethod) : Nat :=
  if m = .none then salsa20NonceLen else aeadOverhead m

/-- `random_pad_len`: uniform over `[0, maxInclusive]`. -/
def randomPadLen (maxInclusive : Nat) (draw : UInt32) : Nat :=
  (randomBelow (UInt32.ofNat (maxInclusive + 1)) draw).toUInt8.toNat

namespace Frame

/-- The padding of a frame: drawn for the first frames of a stream, none afterwards. -/
def padLen (o : Obfuscator) (frame : Frame) (draws : FrameDraws) : Nat :=
  if frame.seq < framePadFirstNFrames then
    randomPadLen (frameMaxExtraLen - tagLenForMethod o.method) draws.pad
  else 0

/-- The length of a frame on the wire. -/
def usefulLen (o : Obfuscator) (frame : Frame) (draws : FrameDraws) : Nat :=
  frameHeaderLen + frame.payload.length + padLen o frame draws + tagLenForMethod o.method

/-- The plaintext header. -/
def header (frame : Frame) (extraLen : Nat) : List UInt8 :=
  beBytes 4 frame.streamId.toNat ++ beBytes 8 frame.seq
    ++ [frame.closing, UInt8.ofNat extraLen]

/-- The buffer with the frame laid out in the clear: payload (unless it is in place already),
    header, then filler over the padding and the tag. -/
def layOut (o : Obfuscator) (frame : Frame) (draws : FrameDraws) (buf : List UInt8)
    (payloadOffsetInBuf : Nat) : List UInt8 :=
  patch
    (patch
      (if payloadOffsetInBuf ≠ frameHeaderLen then patch buf frameHeaderLen frame.payload else buf)
      0 (frame.header (padLen o frame draws + tagLenForMethod o.method)))
    (frameHeaderLen + frame.payload.length)
    (randomBytes draws.filler (padLen o frame draws + tagLenForMethod o.method))

/-- Seal payload and padding in place; the tag overwrites the filler behind them. Without an AEAD
    the filler stays, as the source of the header nonce. -/
def sealBody (evp : Evp) (o : Obfuscator) (frame : Frame) (draws : FrameDraws)
    (buf : List UInt8) : Option (List UInt8) :=
  if o.method = .none then some buf
  else
    match aeadSeal evp o.method o.sessionKey (slice buf 0 aeadNonceLen) []
      (slice buf frameHeaderLen (frame.payload.length + padLen o frame draws)) with
    | none => none
    | some ct => some (patch buf frameHeaderLen ct)

/-- XOR the header in place, under the last eight bytes of the first `n` as nonce. -/
def xorHeader (o : Obfuscator) (buf : List UInt8) (n : Nat) : List UInt8 :=
  patch buf 0 (salsa20Xor (slice buf 0 frameHeaderLen)
    (slice buf (n - salsa20NonceLen) salsa20NonceLen) o.sessionKey)

/-- `cloak_frame_obfuscate`: the buffer afterwards and the length written, or `none` for `-1`. -/
def obfuscate (evp : Evp) (o : Obfuscator) (frame : Frame) (draws : FrameDraws)
    (buf : List UInt8) (payloadOffsetInBuf : Nat) : List UInt8 × Option Nat :=
  if frame.payload.length = 0 then (buf, none)
  else if buf.length < frame.payload.length then (buf, none)
  else if buf.length < usefulLen o frame draws then (buf, none)
  else
    match sealBody evp o frame draws (layOut o frame draws buf payloadOffsetInBuf) with
    | none => (layOut o frame draws buf payloadOffsetInBuf, none)
    | some sealed => (xorHeader o sealed (usefulLen o frame draws), some (usefulLen o frame draws))

/-- The frame behind a decrypted header, once the length checks have passed. -/
def openBody (evp : Evp) (o : Obfuscator) (buf : List UInt8) (usefulPayloadLen : Nat) :
    Option (List UInt8) :=
  if o.method = .none then some (slice buf frameHeaderLen usefulPayloadLen)
  else
    match aeadOpen evp o.method o.sessionKey (slice buf 0 aeadNonceLen) []
      (buf.drop frameHeaderLen) with
    | none => none
    | some opened =>
      if opened.length < usefulPayloadLen then none
      else some (slice (patch buf frameHeaderLen opened) frameHeaderLen usefulPayloadLen)

/-- What `cloak_frame_deobfuscate` makes of a buffer whose header is decrypted. -/
def parse (evp : Evp) (o : Obfuscator) (buf : List UInt8) : Option Frame :=
  if (buf.getD 13 0).toNat < tagLenForMethod o.method then none
  else if buf.length - frameHeaderLen < (buf.getD 13 0).toNat then none
  else
    match openBody evp o buf (buf.length - frameHeaderLen - (buf.getD 13 0).toNat) with
    | none => none
    | some payload =>
      some { streamId := UInt32.ofNat (beNat (slice buf 0 4)), seq := beNat (slice buf 4 8),
             closing := buf.getD 12 0, payload := payload }

/-- `cloak_frame_deobfuscate` of exactly the bytes `buf`. The buffer is scratch to the caller, so
    only the frame is returned. -/
def deobfuscate (evp : Evp) (o : Obfuscator) (buf : List UInt8) : Option Frame :=
  if buf.length < frameHeaderLen + salsa20NonceLen then none
  else parse evp o (xorHeader o buf buf.length)

/-! ## Lengths -/

theorem tagLenForMethod_bounds (m : AeadMethod) :
    salsa20NonceLen ≤ tagLenForMethod m ∧ tagLenForMethod m ≤ aeadTagLen := by
  cases m <;> decide

theorem randomPadLen_le (n : Nat) (draw : UInt32) (h : n < 255) : randomPadLen n draw ≤ n := by
  unfold randomPadLen
  have hn : (UInt32.ofNat (n + 1)).toNat = n + 1 := by
    rw [UInt32.toNat_ofNat']
    omega
  have hlt := randomBelow_lt (UInt32.ofNat (n + 1)) draw (by omega)
  rw [UInt32.toNat_toUInt8]
  omega

/-- Padding and tag together fit the length byte. -/
theorem padLen_add_tagLen_le (o : Obfuscator) (frame : Frame) (draws : FrameDraws) :
    padLen o frame draws + tagLenForMethod o.method ≤ frameMaxExtraLen := by
  have ⟨hlo, hhi⟩ := tagLenForMethod_bounds o.method
  simp only [salsa20NonceLen, aeadTagLen, frameMaxExtraLen] at *
  unfold padLen
  split
  · have hpad := randomPadLen_le (frameMaxExtraLen - tagLenForMethod o.method) draws.pad
      (by simp only [frameMaxExtraLen]; omega)
    simp only [frameMaxExtraLen] at hpad ⊢
    omega
  · omega

theorem usefulLen_le (o : Obfuscator) (frame : Frame) (draws : FrameDraws) :
    usefulLen o frame draws ≤ frameHeaderLen + frame.payload.length + frameMaxExtraLen := by
  have h := padLen_add_tagLen_le o frame draws
  unfold usefulLen
  omega

theorem length_xorHeader (o : Obfuscator) (buf : List UInt8) (n : Nat)
    (h : frameHeaderLen ≤ buf.length) : (xorHeader o buf n).length = buf.length := by
  rw [xorHeader, length_patch]
  rw [length_salsa20Xor, length_slice _ _ _ (by omega)]
  omega

@[simp] theorem length_header (frame : Frame) (n : Nat) :
    (frame.header n).length = frameHeaderLen := by
  simp [header, frameHeaderLen]

/-! ## Encoding -/

/-- The buffer after the frame is laid out, described by its slices. -/
theorem layOut_slices (o : Obfuscator) (frame : Frame) (draws : FrameDraws) (buf : List UInt8)
    (off : Nat) (hcap : usefulLen o frame draws ≤ buf.length)
    (hplace : off = frameHeaderLen → slice buf frameHeaderLen frame.payload.length = frame.payload) :
    (layOut o frame draws buf off).length = buf.length
      ∧ slice (layOut o frame draws buf off) 0 frameHeaderLen
        = frame.header (padLen o frame draws + tagLenForMethod o.method)
      ∧ slice (layOut o frame draws buf off) frameHeaderLen frame.payload.length
        = frame.payload := by
  unfold usefulLen at hcap
  generalize hb0 : (if off ≠ frameHeaderLen then patch buf frameHeaderLen frame.payload else buf)
    = b0
  have hlen0 : b0.length = buf.length := by
    subst hb0
    split
    · exact length_patch _ _ _ (by omega)
    · rfl
  have hpay0 : slice b0 frameHeaderLen frame.payload.length = frame.payload := by
    subst hb0
    split
    · exact slice_patch_self _ _ _ (by omega)
    · next h => exact hplace (by simpa using h)
  have hlen1 : (patch b0 0 (frame.header (padLen o frame draws + tagLenForMethod o.method))).length
      = buf.length := by
    rw [length_patch _ _ _ (by rw [length_header]; omega), hlen0]
  unfold layOut
  rw [hb0]
  refine ⟨?_, ?_, ?_⟩
  · rw [length_patch _ _ _ (by rw [length_randomBytes, hlen1]; omega), hlen1]
  · have hself := slice_patch_self b0 0
      (frame.header (padLen o frame draws + tagLenForMethod o.method)) (Nat.zero_le _)
    rw [length_header] at hself
    rw [slice_patch_of_disjoint _ _ _ _ _ (by omega) (Or.inl (by omega)), hself]
  · rw [slice_patch_of_disjoint _ _ _ _ _ (by omega) (Or.inl (by omega)),
      slice_patch_of_disjoint _ _ _ _ _ (Nat.zero_le _) (Or.inr (by rw [length_header]; omega)),
      hpay0]

/-- The nonce a frame is sealed under: the first bytes of its header. -/
def nonce (frame : Frame) : List UInt8 := beBytes 4 frame.streamId.toNat ++ beBytes 8 frame.seq

/-- Frames with different ids or counters have different nonces. -/
theorem nonce_inj {f f' : Frame} (hseq : f.seq < 2 ^ 64) (hseq' : f'.seq < 2 ^ 64)
    (h : f.nonce = f'.nonce) : f.streamId = f'.streamId ∧ f.seq = f'.seq := by
  obtain ⟨hid, hsq⟩ := List.append_inj h (by rw [length_beBytes, length_beBytes])
  have hid' := congrArg beNat hid
  have hsq' := congrArg beNat hsq
  rw [beNat_beBytes _ _ f.streamId.toNat_lt, beNat_beBytes _ _ f'.streamId.toNat_lt] at hid'
  rw [beNat_beBytes _ _ (by simpa using hseq), beNat_beBytes _ _ (by simpa using hseq')] at hsq'
  exact ⟨UInt32.toNat_inj.mp hid', hsq'⟩

/-- The buffer after sealing: header, then a body that opens to payload and padding. -/
theorem sealBody_slices {evp : Evp} (hevp : evp.Lawful) (o : Obfuscator) (frame : Frame)
    (draws : FrameDraws) (buf : List UInt8) (off : Nat)
    (hcap : usefulLen o frame draws ≤ buf.length)
    (hplace : off = frameHeaderLen → slice buf frameHeaderLen frame.payload.length = frame.payload) :
    ∃ sealed, sealBody evp o frame draws (layOut o frame draws buf off) = some sealed
      ∧ sealed.length = buf.length
      ∧ slice sealed 0 frameHeaderLen
        = frame.header (padLen o frame draws + tagLenForMethod o.method)
      ∧ openBody evp o (sealed.take (usefulLen o frame draws)) frame.payload.length
        = some frame.payload := by
  obtain ⟨hlen, hhead, hpay⟩ := layOut_slices o frame draws buf off hcap hplace
  generalize layOut o frame draws buf off = b at *
  have huse : usefulLen o frame draws
      = frameHeaderLen + (frame.payload.length + padLen o frame draws) + tagLenForMethod o.method := by
    unfold usefulLen
    omega
  by_cases hm : o.method = .none
  · refine ⟨b, by rw [sealBody, if_pos hm], hlen, hhead, ?_⟩
    rw [openBody, if_pos hm, slice_take _ _ _ _ (by omega), hpay]
  · have htag : tagLenForMethod o.method = aeadOverhead o.method := by
      rw [tagLenForMethod, if_neg hm]
    obtain ⟨ct, hseal, hct, hopen⟩ := hevp.aeadSeal_some o.method o.sessionKey
      (slice b 0 aeadNonceLen) [] (slice b frameHeaderLen (frame.payload.length + padLen o frame draws))
    rw [length_slice _ _ _ (by omega)] at hct
    have hfit : frameHeaderLen + ct.length ≤ b.length := by omega
    refine ⟨patch b frameHeaderLen ct, ?_, ?_, ?_, ?_⟩
    · rw [sealBody, if_neg hm, hseal]
    · rw [length_patch _ _ _ hfit, hlen]
    · rw [slice_patch_of_disjoint _ _ _ _ _ (by omega) (Or.inl (by omega)), hhead]
    · have hnonce : slice ((patch b frameHeaderLen ct).take (usefulLen o frame draws)) 0 aeadNonceLen
          = slice b 0 aeadNonceLen := by
        rw [slice_take _ _ _ _ (by simp only [aeadNonceLen, frameHeaderLen] at *; omega),
          slice_patch_of_disjoint _ _ _ _ _ (by omega)
            (Or.inl (by simp only [aeadNonceLen, frameHeaderLen]; omega))]
      have hbody : ((patch b frameHeaderLen ct).take (usefulLen o frame draws)).drop frameHeaderLen
          = ct := by
        have hself := slice_patch_self b frameHeaderLen ct (by omega)
        rw [slice] at hself
        rw [List.drop_take, show usefulLen o frame draws - frameHeaderLen = ct.length by omega]
        exact hself
      rw [openBody, if_neg hm, hnonce, hbody, hopen]
      simp only [length_slice b _ _ (show frameHeaderLen + (frame.payload.length
        + padLen o frame draws) ≤ b.length by omega)]
      rw [if_neg (by omega)]
      congr 1
      rw [slice_patch_of_subset _ _ _ _ _ (by rw [List.length_take, length_patch _ _ _ hfit]; omega)
          (Nat.le_refl _)
          (by rw [length_slice _ _ _ (by omega)]; omega),
        Nat.sub_self, slice, slice, List.drop_zero, List.take_take, Nat.min_eq_left (by omega)]
      exact hpay

/-- Encoding succeeds whenever the buffer has room for what was drawn. -/
theorem obfuscate_eq_some {evp : Evp} (hevp : evp.Lawful) (o : Obfuscator) (frame : Frame)
    (draws : FrameDraws) (buf : List UInt8) (off : Nat) (hpay : 0 < frame.payload.length)
    (hcap : usefulLen o frame draws ≤ buf.length)
    (hplace : off = frameHeaderLen → slice buf frameHeaderLen frame.payload.length = frame.payload) :
    ∃ out, out.length = buf.length
      ∧ obfuscate evp o frame draws buf off = (out, some (usefulLen o frame draws)) := by
  obtain ⟨sealed, hseal, hsealed, _⟩ := sealBody_slices hevp o frame draws buf off hcap hplace
  have hlen : frame.payload.length ≤ usefulLen o frame draws := by
    unfold usefulLen
    omega
  have hhead : frameHeaderLen ≤ usefulLen o frame draws := by
    unfold usefulLen
    omega
  exact ⟨xorHeader o sealed (usefulLen o frame draws),
    by rw [length_xorHeader _ _ _ (by omega), hsealed],
    by rw [obfuscate, if_neg (by omega), if_neg (by omega), if_neg (by omega), hseal]⟩

/-- A decoded payload is what is left of the envelope after header and tag. -/
theorem length_payload_deobfuscate {evp : Evp} {o : Obfuscator} {buf : List UInt8} {frame : Frame}
    (h : deobfuscate evp o buf = some frame) :
    frame.payload.length + frameHeaderLen + tagLenForMethod o.method ≤ buf.length := by
  unfold deobfuscate at h
  split at h
  · cases h
  · next hlen =>
    have hx := length_xorHeader o buf buf.length (by omega)
    unfold parse at h
    rw [hx] at h
    split at h
    · cases h
    · split at h
      · cases h
      · split at h
        · cases h
        · next payload hbody =>
          obtain rfl := Option.some.inj h
          have hle : payload.length
              ≤ buf.length - frameHeaderLen - ((xorHeader o buf buf.length).getD 13 0).toNat := by
            unfold openBody at hbody
            split at hbody
            · obtain rfl := Option.some.inj hbody
              exact List.length_take_le _ _
            · split at hbody
              · cases hbody
              · split at hbody
                · cases hbody
                · obtain rfl := Option.some.inj hbody
                  exact List.length_take_le _ _
          change payload.length + _ + _ ≤ _
          omega

/-! ## The round trip -/

/-- The header encryption undoes itself on the bytes it is sent with: it leaves its own nonce
    alone. -/
theorem xorHeader_xorHeader (o : Obfuscator) (buf : List UInt8) (n : Nat)
    (hlo : frameHeaderLen + salsa20NonceLen ≤ n) (hhi : n ≤ buf.length) :
    xorHeader o ((xorHeader o buf n).take n) n = buf.take n := by
  have hhead : (slice buf 0 frameHeaderLen).length = frameHeaderLen :=
    length_slice _ _ _ (by omega)
  have hnonce : slice ((xorHeader o buf n).take n) (n - salsa20NonceLen) salsa20NonceLen
      = slice buf (n - salsa20NonceLen) salsa20NonceLen := by
    rw [slice_take _ _ _ _ (by omega), xorHeader,
      slice_patch_of_disjoint _ _ _ _ _ (Nat.zero_le _)
        (Or.inr (by rw [length_salsa20Xor, hhead]; omega))]
  have hfront : slice ((xorHeader o buf n).take n) 0 frameHeaderLen
      = salsa20Xor (slice buf 0 frameHeaderLen)
          (slice buf (n - salsa20NonceLen) salsa20NonceLen) o.sessionKey := by
    have hself := slice_patch_self buf 0 (salsa20Xor (slice buf 0 frameHeaderLen)
      (slice buf (n - salsa20NonceLen) salsa20NonceLen) o.sessionKey) (Nat.zero_le _)
    rw [length_salsa20Xor, hhead] at hself
    rw [slice_take _ _ _ _ (by omega), xorHeader, hself]
  have hrest : ((xorHeader o buf n).take n).drop frameHeaderLen = (buf.take n).drop frameHeaderLen := by
    rw [xorHeader, patch_zero, length_salsa20Xor, hhead, List.drop_take, List.drop_take,
      List.drop_left' (by rw [length_salsa20Xor, hhead])]
  have hunfold : xorHeader o ((xorHeader o buf n).take n) n
      = slice buf 0 frameHeaderLen ++ (buf.take n).drop frameHeaderLen := by
    rw [xorHeader, hnonce, hfront, salsa20Xor_salsa20Xor, patch_zero, hhead, hrest]
  rw [hunfold, slice, List.drop_zero, List.drop_take, ← List.take_add]
  congr 1
  omega

/-- A decrypted buffer whose header and body are those of `frame` parses to `frame`. -/
theorem parse_eq (evp : Evp) (o : Obfuscator) (frame : Frame) (buf : List UInt8) (extra : Nat)
    (hseq : frame.seq < 2 ^ 64) (hhead : slice buf 0 frameHeaderLen = frame.header extra)
    (hextra : extra ≤ frameMaxExtraLen) (htag : tagLenForMethod o.method ≤ extra)
    (hlen : buf.length = frameHeaderLen + frame.payload.length + extra)
    (hbody : openBody evp o buf frame.payload.length = some frame.payload) :
    parse evp o buf = some frame := by
  have hbuf : buf = frame.header extra ++ buf.drop frameHeaderLen := by
    rw [← hhead, slice, List.drop_zero, List.take_append_drop]
  have hextraByte : (buf.getD 13 0).toNat = extra := by
    rw [hbuf, header, List.getD_append _ _ _ _ (by simp), List.getD_append_right _ _ _ _ (by simp)]
    simp only [List.length_append, length_beBytes, frameMaxExtraLen] at *
    change (UInt8.ofNat extra).toNat = extra
    rw [UInt8.toNat_ofNat']
    omega
  have hclosing : buf.getD 12 0 = frame.closing := by
    rw [hbuf, header, List.getD_append _ _ _ _ (by simp), List.getD_append_right _ _ _ _ (by simp)]
    simp only [List.length_append, length_beBytes]
    rfl
  have hid : slice buf 0 4 = beBytes 4 frame.streamId.toNat := by
    rw [hbuf, header, slice, List.drop_zero, List.append_assoc, List.append_assoc,
      List.take_left' (length_beBytes _ _)]
  have hsq : slice buf 4 8 = beBytes 8 frame.seq := by
    rw [hbuf, header, slice, List.append_assoc, List.append_assoc,
      List.drop_left' (length_beBytes _ _), List.take_left' (length_beBytes _ _)]
  have hidlt : frame.streamId.toNat < 256 ^ 4 := frame.streamId.toNat_lt
  rw [parse, hextraByte, if_neg (by omega), if_neg (by omega),
    show buf.length - frameHeaderLen - extra = frame.payload.length by omega, hbody]
  simp only [hid, hsq, hclosing]
  rw [beNat_beBytes _ _ hidlt, beNat_beBytes _ _ (by simpa using hseq), UInt32.ofNat_toNat]

/-- Decoding exactly the bytes an encoding wrote returns the frame. -/
theorem deobfuscate_take_of_obfuscate {evp : Evp} (hevp : evp.Lawful) {o : Obfuscator} {frame : Frame}
    (hseq : frame.seq < 2 ^ 64) {draws : FrameDraws} {buf out : List UInt8} {off n : Nat}
    (hplace : off = frameHeaderLen → slice buf frameHeaderLen frame.payload.length = frame.payload)
    (h : obfuscate evp o frame draws buf off = (out, some n)) :
    deobfuscate evp o (out.take n) = some frame := by
  unfold obfuscate at h
  split at h
  · cases h
  · split at h
    · cases h
    · split at h
      · cases h
      · next hcap =>
        obtain ⟨sealed, hseal, hlen, hhead, hbody⟩ :=
          sealBody_slices hevp o frame draws buf off (by omega) hplace
        rw [hseal] at h
        obtain ⟨rfl, hn⟩ := Prod.mk.inj h
        obtain rfl := Option.some.inj hn
        have htag := tagLenForMethod_bounds o.method
        have hmin : frameHeaderLen + salsa20NonceLen ≤ usefulLen o frame draws := by
          unfold usefulLen
          omega
        have hxlen := length_xorHeader o sealed (usefulLen o frame draws) (by omega)
        have htake : ((xorHeader o sealed (usefulLen o frame draws)).take
            (usefulLen o frame draws)).length = usefulLen o frame draws := by
          rw [List.length_take]
          omega
        rw [deobfuscate, htake, if_neg (by omega), xorHeader_xorHeader o _ _ hmin (by omega)]
        apply parse_eq evp o frame _ (padLen o frame draws + tagLenForMethod o.method) hseq
        · rw [slice_take _ _ _ _ (by omega), hhead]
        · exact padLen_add_tagLen_le o frame draws
        · omega
        · rw [List.length_take]
          unfold usefulLen at hcap ⊢
          omega
        · exact hbody

/-- Encoding succeeds into any buffer with room for the worst case, and decoding exactly the bytes
    written returns the frame, whatever was drawn. -/
theorem deobfuscate_obfuscate (evp : Evp) (hevp : evp.Lawful) (o : Obfuscator) (frame : Frame)
    (hseq : frame.seq < 2 ^ 64) (hpay : 1 ≤ frame.payload.length) (draws : FrameDraws)
    (buf : List UInt8) (payloadOffsetInBuf : Nat)
    (hplace : payloadOffsetInBuf = frameHeaderLen →
      slice buf frameHeaderLen frame.payload.length = frame.payload)
    (hcap : frameHeaderLen + frame.payload.length + frameMaxExtraLen ≤ buf.length) :
    ∃ out len, obfuscate evp o frame draws buf payloadOffsetInBuf = (out, some len)
      ∧ len ≤ frameHeaderLen + frame.payload.length + frameMaxExtraLen
      ∧ deobfuscate evp o (out.take len) = some frame := by
  have hle := usefulLen_le o frame draws
  obtain ⟨out, _, hout⟩ := obfuscate_eq_some hevp o frame draws buf payloadOffsetInBuf hpay
    (Nat.le_trans hle hcap) hplace
  exact ⟨out, usefulLen o frame draws, hout, hle,
    deobfuscate_take_of_obfuscate hevp hseq hplace hout⟩

/-- One data byte under the method without an AEAD, into the smallest buffer the bound allows. -/
theorem deobfuscate_obfuscate_none : ∃ out len,
    obfuscate Evp.plain ⟨.none, List.replicate 32 0, rfl⟩ ⟨1, 0, closingNothing, [7]⟩
      ⟨0, fun _ => 0⟩ (List.replicate 270 0) 0 = (out, some len)
      ∧ len ≤ frameHeaderLen + 1 + frameMaxExtraLen
      ∧ deobfuscate Evp.plain ⟨.none, List.replicate 32 0, rfl⟩ (out.take len)
        = some ⟨1, 0, closingNothing, [7]⟩ :=
  deobfuscate_obfuscate Evp.plain Evp.plain_lawful _ ⟨1, 0, closingNothing, [7]⟩ (by decide)
    (by decide) _ _ _ (by decide) (by rw [List.length_replicate]; decide)

end Frame

end Cloak
