import Mathlib
import Cloak.Lib.Refine
import Cloak.Mux.Conn

set_option autoImplicit false

/-! # The frame header codec and the threaded mask (`ws_frame.c`)

What the writer emits the parser takes back, with anything behind it, and a verdict stands once it is
reached. The mask of a payload is computed a chunk at a time, each call starting at the position the one
before it returned; `maskChunks_eq` says that the chunks do not show. -/

namespace Cloak

open Lib

/-! ## What the writer takes -/

/-- The length of the header that is written. -/
def wsWrittenLen (maskKey : Option MaskKey) (payloadLen : Nat) : Nat :=
  2 + (if payloadLen ≤ 125 then 0 else if payloadLen ≤ 0xffff then 2 else 8)
    + (if maskKey.isSome then 4 else 0)

/-- A header is written unless it is one the parser refuses, or there is no room for it. -/
theorem wsFrameWriteHeader_isSome_iff (cap : Nat) (op : WsOpcode) (fin : Bool) (maskKey : Option MaskKey)
    (n : Nat) :
    (wsFrameWriteHeader cap op fin (maskKey.map Subtype.val) n).isSome
      ↔ (op.isControl = true → n ≤ wsFrameMaxControlPayload ∧ fin = true) ∧ n < 2 ^ 63
        ∧ wsWrittenLen maskKey n ≤ cap := by
  rw [wsFrameWriteHeader, wsExtLen_wsLen7, Option.isSome_map, ← wsWrittenLen]
  constructor
  · intro h
    split at h
    · cases h
    · next hctl =>
      split at h
      · cases h
      · next hlen =>
        split at h
        · cases h
        · next hcap =>
          refine ⟨fun hc => ?_, Nat.not_le.mp hlen, Nat.not_lt.mp hcap⟩
          constructor
          · exact Nat.not_lt.mp fun hlt => hctl ⟨hc, Or.inl hlt⟩
          · exact Bool.not_eq_false _ ▸ fun hf => hctl ⟨hc, Or.inr hf⟩
  · rintro ⟨hctl, hlen, hcap⟩
    rw [if_neg, if_neg (Nat.not_le.mpr hlen), if_neg (Nat.not_lt.mpr hcap)]
    · rfl
    · rintro ⟨hc, hbad⟩
      obtain ⟨hle, hfin⟩ := hctl hc
      rcases hbad with hlt | hf
      · omega
      · rw [hfin] at hf
        cases hf

theorem length_of_wsFrameWriteHeader {cap : Nat} {op : WsOpcode} {fin : Bool} {maskKey : Option MaskKey}
    {n : Nat} {hdr : List UInt8}
    (h : wsFrameWriteHeader cap op fin (maskKey.map Subtype.val) n = some hdr) :
    hdr.length = wsWrittenLen maskKey n := by
  obtain ⟨-, -, rfl⟩ := wsFrameWriteHeader_eq_some h
  have hkey : ((maskKey.map Subtype.val).getD []).length = if maskKey.isSome then 4 else 0 := by
    cases maskKey with
    | none => rfl
    | some k => exact k.property
  rw [List.length_cons, List.length_cons, List.length_append, length_beBytes, hkey, wsExtLen_wsLen7,
    wsWrittenLen]
  omega

/-- A written header is parsed with anything behind it. -/
theorem parseHeader_writeHeader_append {cap : Nat} {op : WsOpcode} {fin : Bool}
    {maskKey : Option MaskKey} {n : Nat} {hdr : List UInt8}
    (h : wsFrameWriteHeader cap op fin (maskKey.map Subtype.val) n = some hdr) (rest : List UInt8) :
    wsFrameParseHeader (hdr ++ rest) = .ok
      { opcode := op, fin := fin, masked := maskKey.isSome
        maskKey := (maskKey.map Subtype.val).getD (List.replicate 4 0), payloadLen := n
        headerLen := hdr.length } := by
  have hkey : ∀ k ∈ maskKey.map Subtype.val, k.length = 4 := by
    intro k hk
    obtain ⟨k, -, rfl⟩ := Option.map_eq_some_iff.mp hk
    exact k.property
  have hparse := parseHeader_of_writeHeader h hkey (List.prefix_refl (hdr ++ rest))
  rwa [if_neg (by rw [List.length_append]; omega), Option.isSome_map] at hparse

/-! ## The mask, one call at a time -/

/-- `cloak_ws_frame_mask`: the payload it leaves, and the position it returns. -/
def wsFrameMaskCall (key : MaskKey) (pos : UInt64) (payload : List UInt8) : UInt64 × List UInt8 :=
  if payload.length = 0 then (pos &&& 3, payload)
  else
    ((pos + UInt64.ofNat payload.length) &&& 3,
      payload.mapIdx fun i b => b ^^^ key.val.getD ((pos + UInt64.ofNat i) &&& 3).toNat 0)

/-- The residue of a position, also where the sum has wrapped. -/
theorem toNat_and_three (pos : UInt64) (n : Nat) :
    ((pos + UInt64.ofNat n) &&& 3).toNat = (pos.toNat + n) % 4 := by
  have hthree : (3 : UInt64).toNat = 2 ^ 2 - 1 := rfl
  rw [UInt64.toNat_and, hthree, Nat.and_two_pow_sub_one_eq_mod, UInt64.toNat_add, UInt64.toNat_ofNat']
  omega

/-- The loop of the call is the mask from position `pos` on. -/
theorem wsFrameMaskCall_eq (key : MaskKey) (pos : UInt64) (payload : List UInt8) :
    (wsFrameMaskCall key pos payload).2 = wsFrameMask key.val pos.toNat payload
      ∧ (wsFrameMaskCall key pos payload).1.toNat = (pos.toNat + payload.length) % 4 := by
  have hloop : ∀ (bs : List UInt8) (p : Nat),
      bs.mapIdx (fun i b => b ^^^ key.val.getD ((p + i) % 4) 0) = wsFrameMask key.val p bs := by
    intro bs
    induction bs with
    | nil => exact fun _ => rfl
    | cons b bs ih =>
      intro p
      rw [List.mapIdx_cons, wsFrameMask, ← ih (p + 1)]
      simp only [Nat.add_zero, Nat.add_assoc, Nat.add_comm 1]
  unfold wsFrameMaskCall
  split
  · next hnil =>
    have hpos := toNat_and_three pos 0
    rw [List.length_eq_zero_iff] at hnil
    subst hnil
    exact ⟨rfl, by simpa using hpos⟩
  · simp only [toNat_and_three]
    exact ⟨hloop payload pos.toNat, trivial⟩

/-- One call for each chunk, each from where the one before it left off. -/
def wsMaskChunks (key : MaskKey) (pos : UInt64) (chunks : List (List UInt8)) :
    UInt64 × List (List UInt8) :=
  trace (wsFrameMaskCall key) pos chunks

/-- The chunks together are the mask of the whole payload, and the position they end at is that of one
call on it. -/
theorem wsMaskChunks_eq (key : MaskKey) (pos : UInt64) (chunks : List (List UInt8)) :
    (wsMaskChunks key pos chunks).2.flatten = wsFrameMask key.val pos.toNat chunks.flatten
      ∧ (wsMaskChunks key pos chunks).1.toNat % 4 = (pos.toNat + chunks.flatten.length) % 4 := by
  unfold wsMaskChunks
  induction chunks generalizing pos with
  | nil => exact ⟨rfl, rfl⟩
  | cons chunk chunks ih =>
    obtain ⟨hout, hpos⟩ := wsFrameMaskCall_eq key pos chunk
    obtain ⟨ihout, ihpos⟩ := ih (wsFrameMaskCall key pos chunk).1
    rw [trace_cons, List.flatten_cons, List.flatten_cons, List.length_append, wsFrameMask_append, hout, ihout,
      ihpos, hpos, wsFrameMask_mod]
    exact ⟨rfl, by omega⟩

/-- Two ways of cutting one payload give one result. -/
theorem wsMaskChunks_congr (key : MaskKey) (pos : UInt64) {chunks chunks' : List (List UInt8)}
    (h : chunks.flatten = chunks'.flatten) :
    (wsMaskChunks key pos chunks).2.flatten = (wsMaskChunks key pos chunks').2.flatten := by
  rw [(wsMaskChunks_eq key pos chunks).1, (wsMaskChunks_eq key pos chunks').1, h]

/-- Masking again gives the payload back, whatever the chunks are either time. -/
theorem wsMaskChunks_involutive (key : MaskKey) (pos : UInt64) {chunks again : List (List UInt8)}
    (h : again.flatten = (wsMaskChunks key pos chunks).2.flatten) :
    (wsMaskChunks key pos again).2.flatten = chunks.flatten := by
  rw [(wsMaskChunks_eq key pos again).1, h, (wsMaskChunks_eq key pos chunks).1, wsFrameMask_wsFrameMask]

/-- The codec: what is written is read back whole with anything behind it; a verdict that has been reached
stands when more arrives, and one is reached within the longest header; the mask undoes itself and does not
depend on how the payload is cut. -/
theorem ws_header_codec :
    (∀ cap op fin (maskKey : Option MaskKey) n hdr,
      wsFrameWriteHeader cap op fin (maskKey.map Subtype.val) n = some hdr →
        hdr.length = wsWrittenLen maskKey n ∧ ∀ rest, wsFrameParseHeader (hdr ++ rest) = .ok
          { opcode := op, fin := fin, masked := maskKey.isSome
            maskKey := (maskKey.map Subtype.val).getD (List.replicate 4 0), payloadLen := n
            headerLen := hdr.length })
      ∧ (∀ cap op fin (maskKey : Option MaskKey) n,
          (wsFrameWriteHeader cap op fin (maskKey.map Subtype.val) n).isSome
            ↔ (op.isControl = true → n ≤ wsFrameMaxControlPayload ∧ fin = true) ∧ n < 2 ^ 63
              ∧ wsWrittenLen maskKey n ≤ cap)
      ∧ (∀ buf more, wsFrameParseHeader buf ≠ .incomplete →
          wsFrameParseHeader (buf ++ more) = wsFrameParseHeader buf)
      ∧ (∀ buf, wsFrameParseHeader buf = .incomplete → buf.length < wsFrameMaxHeaderLen)
      ∧ (∀ key pos chunks chunks', chunks.flatten = chunks'.flatten →
          (wsMaskChunks key pos chunks).2.flatten = (wsMaskChunks key pos chunks').2.flatten)
      ∧ (∀ key pos chunks again, again.flatten = (wsMaskChunks key pos chunks).2.flatten →
          (wsMaskChunks key pos again).2.flatten = chunks.flatten) := by
  refine ⟨?_, wsFrameWriteHeader_isSome_iff, parseHeader_append, fun _ => parseHeader_incomplete_lt,
    fun key pos _ _ => wsMaskChunks_congr key pos, fun key pos _ _ => wsMaskChunks_involutive key pos⟩
  intro cap op fin maskKey n hdr h
  exact ⟨length_of_wsFrameWriteHeader h, parseHeader_writeHeader_append h⟩

/-- The header of 300 unmasked bytes in two bytes of length, with a byte of the payload behind it. -/
theorem ws_header_codec_binary :
    wsFrameParseHeader ([0x82, 126, 0x01, 0x2c] ++ [0xff]) = .ok
      { opcode := .binary, fin := true, masked := false, maskKey := List.replicate 4 0, payloadLen := 300
        headerLen := 4 } :=
  (ws_header_codec.1 14 .binary true none 300 [0x82, 126, 0x01, 0x2c] (by decide)).2 [0xff]

end Cloak
