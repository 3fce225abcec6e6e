import Mathlib
import Cloak.Lib.Slice
import Cloak.Lib.BigEndian

set_option autoImplicit false

/-! # WebSocket frames (`ws_frame.c`)

The header codec and the payload mask. `parseHeader` decides as early as the bytes allow: malformed
as soon as the bytes that prove it are there, incomplete only while they are not. `writeHeader`
always emits the shortest form.

What the connection layer uses is `parseHeader_of_writeHeader`: on the bytes of a written header
followed by anything, of which only a part may have arrived, the parser waits exactly until the
header is whole and then returns the fields that were written. -/

namespace Cloak

open Lib

/-- `cloak_ws_opcode_t`. -/
inductive WsOpcode where
  | continuation
  | text
  | binary
  | close
  | ping
  | pong
deriving DecidableEq, Repr

/-- `CLOAK_WS_FRAME_MAX_HEADER_LEN`. -/
def wsFrameMaxHeaderLen : Nat := 14

/-- `CLOAK_WS_FRAME_MAX_CONTROL_PAYLOAD`. -/
def wsFrameMaxControlPayload : Nat := 125

namespace WsOpcode

def toByte : WsOpcode → UInt8
  | .continuation => 0x0
  | .text => 0x1
  | .binary => 0x2
  | .close => 0x8
  | .ping => 0x9
  | .pong => 0xA

/-- `ws_opcode_is_known`, with the opcode it is. -/
def ofByte (b : UInt8) : Option WsOpcode :=
  if b = 0x0 then some .continuation
  else if b = 0x1 then some .text
  else if b = 0x2 then some .binary
  else if b = 0x8 then some .close
  else if b = 0x9 then some .ping
  else if b = 0xA then some .pong
  else none

/-- `ws_opcode_is_control`. -/
def isControl (op : WsOpcode) : Bool := op.toByte &&& 0x8 != 0

end WsOpcode

/-- `cloak_ws_frame_header_t`. -/
structure WsFrameHeader where
  opcode : WsOpcode
  fin : Bool
  masked : Bool
  maskKey : List UInt8
  payloadLen : Nat
  headerLen : Nat
deriving DecidableEq, Repr

/-- What `cloak_ws_frame_parse_header` answers: `0`, `-1` or the header. -/
inductive WsParse where
  | incomplete
  | malformed
  | ok (h : WsFrameHeader)
deriving DecidableEq, Repr

/-- The bytes of extended length behind the length marker of the second header byte. -/
def wsExtLen (len7 : UInt8) : Nat :=
  if len7 = 126 then 2 else if len7 = 127 then 8 else 0

/-- The declared payload length. -/
def wsPayloadLen (buf : List UInt8) (len7 : UInt8) : Nat :=
  if wsExtLen len7 = 0 then len7.toNat else beNat (slice buf 2 (wsExtLen len7))

/-- The length of a header with second byte `b1`. -/
def wsHeaderLen (b1 : UInt8) : Nat :=
  2 + wsExtLen (b1 &&& 0x7f) + (if b1 &&& 0x80 ≠ 0 then 4 else 0)

/-- `cloak_ws_frame_parse_header`. -/
def wsFrameParseHeader (buf : List UInt8) : WsParse :=
  if buf.length < 2 then .incomplete
  else if buf.getD 0 0 &&& 0x70 ≠ 0 then .malformed
  else
    match WsOpcode.ofByte (buf.getD 0 0 &&& 0x0f) with
    | none => .malformed
    | some op =>
      if op.isControl = true
          ∧ (wsFrameMaxControlPayload < (buf.getD 1 0 &&& 0x7f).toNat ∨ buf.getD 0 0 &&& 0x80 = 0)
        then .malformed
      else if buf.length < 2 + wsExtLen (buf.getD 1 0 &&& 0x7f) then .incomplete
      else if wsExtLen (buf.getD 1 0 &&& 0x7f) = 8
          ∧ 2 ^ 63 ≤ wsPayloadLen buf (buf.getD 1 0 &&& 0x7f) then .malformed
      else if buf.length < wsHeaderLen (buf.getD 1 0) then .incomplete
      else .ok
        { opcode := op
          fin := buf.getD 0 0 &&& 0x80 != 0
          masked := buf.getD 1 0 &&& 0x80 != 0
          maskKey :=
            if buf.getD 1 0 &&& 0x80 ≠ 0 then slice buf (2 + wsExtLen (buf.getD 1 0 &&& 0x7f)) 4
            else List.replicate 4 0
          payloadLen := wsPayloadLen buf (buf.getD 1 0 &&& 0x7f)
          headerLen := wsHeaderLen (buf.getD 1 0) }

/-- The length marker `cloak_ws_frame_write_header` chooses. -/
def wsLen7 (payloadLen : Nat) : UInt8 :=
  if payloadLen ≤ 125 then UInt8.ofNat payloadLen else if payloadLen ≤ 0xffff then 126 else 127

/-- `cloak_ws_frame_write_header`: the header bytes, or `none` for `-1`. -/
def wsFrameWriteHeader (cap : Nat) (op : WsOpcode) (fin : Bool) (maskKey : Option (List UInt8))
    (payloadLen : Nat) : Option (List UInt8) :=
  if op.isControl = true ∧ (wsFrameMaxControlPayload < payloadLen ∨ fin = false) then none
  else if 2 ^ 63 ≤ payloadLen then none
  else if cap < 2 + wsExtLen (wsLen7 payloadLen) + (if maskKey.isSome then 4 else 0) then none
  else some
    ([(if fin then 0x80 else 0) ||| op.toByte,
        wsLen7 payloadLen ||| (if maskKey.isSome then 0x80 else 0)]
      ++ beBytes (wsExtLen (wsLen7 payloadLen)) payloadLen ++ maskKey.getD [])

/-- `cloak_ws_frame_mask` at position `pos` of the whole payload. -/
def wsFrameMask (key : List UInt8) : (pos : Nat) → List UInt8 → List UInt8
  | _, [] => []
  | pos, b :: bs => (b ^^^ key.getD (pos % 4) 0) :: wsFrameMask key (pos + 1) bs

/-! ## The mask -/

@[simp] theorem length_wsFrameMask (key : List UInt8) (pos : Nat) (bs : List UInt8) :
    (wsFrameMask key pos bs).length = bs.length := by
  induction bs generalizing pos with
  | nil => rfl
  | cons b bs ih => rw [wsFrameMask, List.length_cons, ih, List.length_cons]

theorem wsFrameMask_append (key : List UInt8) (pos : Nat) (as bs : List UInt8) :
    wsFrameMask key pos (as ++ bs)
      = wsFrameMask key pos as ++ wsFrameMask key (pos + as.length) bs := by
  induction as generalizing pos with
  | nil => rfl
  | cons a as ih =>
    rw [List.cons_append, wsFrameMask, wsFrameMask, ih, List.cons_append, List.length_cons,
      Nat.add_right_comm, Nat.add_assoc pos]

/-- Only the residue of the position matters, which is all the C code passes on. -/
theorem wsFrameMask_mod (key : List UInt8) (pos : Nat) (bs : List UInt8) :
    wsFrameMask key (pos % 4) bs = wsFrameMask key pos bs := by
  induction bs generalizing pos with
  | nil => rfl
  | cons b bs ih =>
    rw [wsFrameMask, wsFrameMask, ← ih (pos % 4 + 1), ← ih (pos + 1), Nat.mod_mod, Nat.mod_add_mod]

theorem wsFrameMask_wsFrameMask (key : List UInt8) (pos : Nat) (bs : List UInt8) :
    wsFrameMask key pos (wsFrameMask key pos bs) = bs := by
  induction bs generalizing pos with
  | nil => rfl
  | cons b bs ih =>
    rw [wsFrameMask, wsFrameMask, ih, UInt8.xor_assoc, UInt8.xor_self, UInt8.xor_zero]

/-! ## The header -/

theorem WsOpcode.firstByte (op : WsOpcode) (fin : Bool) :
    ((if fin then (0x80 : UInt8) else 0) ||| op.toByte) &&& 0x70 = 0
      ∧ WsOpcode.ofByte (((if fin then (0x80 : UInt8) else 0) ||| op.toByte) &&& 0x0f) = some op
      ∧ (((if fin then (0x80 : UInt8) else 0) ||| op.toByte) &&& 0x80 != 0) = fin := by
  cases op <;> cases fin <;> decide

/-- The second header byte splits back into the length marker and the mask bit. -/
theorem secondByte (n : Nat) (hn : n < 128) (masked : Bool) :
    (UInt8.ofNat n ||| (if masked then 0x80 else 0)) &&& 0x7f = UInt8.ofNat n
      ∧ ((UInt8.ofNat n ||| (if masked then 0x80 else 0)) &&& 0x80 != 0) = masked := by
  have hall : ∀ n : Fin 128, ∀ masked : Bool,
      (UInt8.ofNat n.val ||| (if masked then 0x80 else 0)) &&& 0x7f = UInt8.ofNat n.val
        ∧ ((UInt8.ofNat n.val ||| (if masked then 0x80 else 0)) &&& 0x80 != 0) = masked := by
    decide
  exact hall ⟨n, hn⟩ masked

theorem wsLen7_eq (n : Nat) : ∃ k, k < 128 ∧ wsLen7 n = UInt8.ofNat k := by
  unfold wsLen7
  split
  · exact ⟨n, by omega, rfl⟩
  · split
    · exact ⟨126, by omega, rfl⟩
    · exact ⟨127, by omega, rfl⟩

theorem wsLen7_toNat (n : Nat) (h : n ≤ 125) : (wsLen7 n).toNat = n := by
  rw [wsLen7, if_pos h, UInt8.toNat_ofNat']
  omega

theorem wsExtLen_wsLen7 (n : Nat) :
    wsExtLen (wsLen7 n) = if n ≤ 125 then 0 else if n ≤ 0xffff then 2 else 8 := by
  unfold wsLen7
  split
  · next h =>
    have hne : ∀ k : Fin 126, wsExtLen (UInt8.ofNat k.val) = 0 := by decide
    exact hne ⟨n, by omega⟩
  · split <;> rfl

/-- What a successful `wsFrameWriteHeader` says about its arguments and its bytes. -/
theorem wsFrameWriteHeader_eq_some {op : WsOpcode} {fin : Bool} {maskKey : Option (List UInt8)}
    {n cap : Nat} {hdr : List UInt8} (h : wsFrameWriteHeader cap op fin maskKey n = some hdr) :
    (op.isControl = true → n ≤ wsFrameMaxControlPayload ∧ fin = true) ∧ n < 2 ^ 63
      ∧ hdr = ((if fin then 0x80 else 0) ||| op.toByte)
        :: (wsLen7 n ||| (if maskKey.isSome then 0x80 else 0))
        :: (beBytes (wsExtLen (wsLen7 n)) n ++ maskKey.getD []) := by
  rw [wsFrameWriteHeader] at h
  by_cases hctl : op.isControl = true ∧ (wsFrameMaxControlPayload < n ∨ fin = false)
  · rw [if_pos hctl] at h
    cases h
  · by_cases hlen : 2 ^ 63 ≤ n
    · rw [if_neg hctl, if_pos hlen] at h
      cases h
    · rw [if_neg hctl, if_neg hlen] at h
      by_cases hcap : cap < 2 + wsExtLen (wsLen7 n) + (if maskKey.isSome then 4 else 0)
      · rw [if_pos hcap] at h
        cases h
      · rw [if_neg hcap] at h
        refine ⟨fun hc => ?_, by omega, ?_⟩
        · constructor
          · by_contra hn
            exact hctl ⟨hc, Or.inl (by omega)⟩
          · by_contra hf
            exact hctl ⟨hc, Or.inr (Bool.eq_false_iff.mpr hf)⟩
        · rw [← Option.some.inj h]
          simp

theorem wsPayloadLen_eq {n : Nat} (hn : n < 2 ^ 63) {buf : List UInt8}
    (hslice : slice buf 2 (wsExtLen (wsLen7 n)) = beBytes (wsExtLen (wsLen7 n)) n) :
    wsPayloadLen buf (wsLen7 n) = n := by
  unfold wsPayloadLen
  rw [hslice]
  have hext := wsExtLen_wsLen7 n
  split
  · next h0 =>
    apply wsLen7_toNat
    by_contra hlt
    rw [if_neg hlt] at hext
    split at hext <;> omega
  · apply beNat_beBytes
    split at hext
    · omega
    · split at hext <;> rw [hext]
      · omega
      · omega

/-- The bytes of a written header followed by `rest`, in part: the parser waits until the header is
    whole and then returns what was written. -/
theorem parseHeader_of_writeHeader {op : WsOpcode} {fin : Bool} {maskKey : Option (List UInt8)}
    {n cap : Nat} {hdr : List UInt8} (h : wsFrameWriteHeader cap op fin maskKey n = some hdr)
    (hkey : ∀ k ∈ maskKey, k.length = 4) {buf rest : List UInt8} (hbuf : buf <+: hdr ++ rest) :
    wsFrameParseHeader buf = if buf.length < hdr.length then .incomplete else .ok
      { opcode := op, fin := fin, masked := maskKey.isSome,
        maskKey := maskKey.getD (List.replicate 4 0), payloadLen := n,
        headerLen := hdr.length } := by
  obtain ⟨hctl, hn, rfl⟩ := wsFrameWriteHeader_eq_some h
  have hkeylen : (maskKey.getD []).length = if maskKey.isSome then 4 else 0 := by
    cases maskKey with
    | none => rfl
    | some k => exact hkey k rfl
  obtain ⟨b70, b0f, b80⟩ := op.firstByte fin
  obtain ⟨k, hk, hk7⟩ := wsLen7_eq n
  obtain ⟨m7f, m80⟩ := secondByte k hk maskKey.isSome
  rw [← hk7] at m7f m80
  generalize ((if fin then (0x80 : UInt8) else 0) ||| op.toByte) = b0 at *
  generalize (wsLen7 n ||| (if maskKey.isSome then (0x80 : UInt8) else 0)) = b1 at *
  simp only [List.length_cons, List.length_append, length_beBytes, hkeylen]
  rcases buf with _ | ⟨x, _ | ⟨y, buf⟩⟩
  · rfl
  · rw [if_pos (by simp)]
    rfl
  · -- both fixed bytes are there
    simp only [List.cons_append, List.cons_prefix_cons] at hbuf
    obtain ⟨rfl, rfl, hbuf⟩ := hbuf
    have hmask : (y &&& 0x80 ≠ 0) ↔ maskKey.isSome = true := by
      rw [← m80, bne_iff_ne]
    have hhlen : wsHeaderLen y
        = wsExtLen (wsLen7 n) + (if maskKey.isSome then 4 else 0) + 1 + 1 := by
      rw [wsHeaderLen, m7f]
      simp only [hmask]
      omega
    rw [wsFrameParseHeader, if_neg (by simp)]
    simp only [List.getD_cons_zero, List.getD_cons_succ, b70, m7f, b0f, ne_eq, not_true_eq_false,
      if_false]
    rw [if_neg (by
      rintro ⟨hc, hbad⟩
      obtain ⟨hle, hfin⟩ := hctl hc
      rcases hbad with hbad | hbad
      · rw [wsLen7_toNat n hle] at hbad
        omega
      · rw [hfin, bne_iff_ne] at b80
        exact b80 hbad)]
    by_cases hext : (x :: y :: buf).length < 2 + wsExtLen (wsLen7 n)
    · rw [if_pos hext, if_pos (by simp only [List.length_cons] at hext ⊢; omega)]
    · rw [if_neg hext]
      simp only [List.length_cons] at hext
      have hslice : slice (x :: y :: buf) 2 (wsExtLen (wsLen7 n))
          = beBytes (wsExtLen (wsLen7 n)) n := by
        obtain ⟨tl, htl⟩ := hbuf
        have htake := congrArg (List.take (wsExtLen (wsLen7 n))) htl
        rw [List.take_append_of_le_length (by omega), List.append_assoc,
          List.take_left' (length_beBytes _ _)] at htake
        exact htake
      rw [wsPayloadLen_eq hn hslice, if_neg (by omega), hhlen]
      simp only [List.length_cons]
      by_cases hwhole : buf.length + 1 + 1
          < wsExtLen (wsLen7 n) + (if maskKey.isSome = true then 4 else 0) + 1 + 1
      · rw [if_pos hwhole, if_pos hwhole]
      · rw [if_neg hwhole, if_neg hwhole]
        congr 2
        cases maskKey with
        | none => rw [if_neg (by simpa using hmask)]; rfl
        | some key =>
          have hk4 := hkey key rfl
          simp only [Option.isSome_some, if_true] at hwhole
          rw [if_pos (by simpa using hmask)]
          obtain ⟨tl, htl⟩ := hbuf
          have htake := congrArg (fun l => (l.drop (wsExtLen (wsLen7 n))).take 4) htl
          simp only [Option.getD_some, List.append_assoc] at htake
          rw [List.drop_append_of_le_length (by omega), List.take_append_of_le_length
            (by rw [List.length_drop]; omega), List.drop_left' (length_beBytes _ _),
            List.take_left' hk4] at htake
          rw [slice, show 2 + wsExtLen (wsLen7 n) = wsExtLen (wsLen7 n) + 1 + 1 by omega]
          exact htake

/-! ## What arrives in parts -/

theorem wsExtLen_le (len7 : UInt8) : wsExtLen len7 ≤ 8 := by
  unfold wsExtLen
  repeat' split
  all_goals omega

theorem wsHeaderLen_bounds (b1 : UInt8) : 2 ≤ wsHeaderLen b1 ∧ wsHeaderLen b1 ≤ wsFrameMaxHeaderLen := by
  have hext := wsExtLen_le (b1 &&& 0x7f)
  unfold wsHeaderLen wsFrameMaxHeaderLen
  split <;> omega

/-- An answer that the first branch does not give is the second's. -/
theorem else_of_ite_eq {α : Type} {q : Prop} [Decidable q] {x y z : α} (hx : x ≠ z)
    (h : (if q then x else y) = z) : ¬ q ∧ y = z :=
  (ite_eq_iff.mp h).resolve_left fun hq => hx hq.2

/-- A whole header is never waited on. -/
theorem parseHeader_incomplete_lt {buf : List UInt8} (h : wsFrameParseHeader buf = .incomplete) :
    buf.length < wsFrameMaxHeaderLen := by
  have hext := wsExtLen_le (buf.getD 1 0 &&& 0x7f)
  have hhdr := (wsHeaderLen_bounds (buf.getD 1 0)).2
  have hmax : wsFrameMaxHeaderLen = 14 := rfl
  -- too short for the two bytes, for the extended length, or for the whole
  by_contra hlong
  rw [wsFrameParseHeader, if_neg (by omega)] at h
  obtain ⟨-, h⟩ := else_of_ite_eq (by simp) h
  cases hop : WsOpcode.ofByte (buf.getD 0 0 &&& 0x0f) with
  | none =>
    rw [hop] at h
    cases h
  | some op =>
    rw [hop] at h
    obtain ⟨-, h⟩ := else_of_ite_eq (by simp) h
    rw [if_neg (by omega)] at h
    obtain ⟨-, h⟩ := else_of_ite_eq (by simp) h
    rw [if_neg (by omega)] at h
    cases h

/-- What the bytes of a parsed header say. -/
theorem parseHeader_ok_inv {buf : List UInt8} {hdr : WsFrameHeader}
    (h : wsFrameParseHeader buf = .ok hdr) :
    hdr.headerLen = wsHeaderLen (buf.getD 1 0) ∧ wsHeaderLen (buf.getD 1 0) ≤ buf.length ∧
      hdr.payloadLen = wsPayloadLen buf (buf.getD 1 0 &&& 0x7f) ∧
      (hdr.opcode.isControl = true → (buf.getD 1 0 &&& 0x7f).toNat ≤ wsFrameMaxControlPayload) := by
  rw [wsFrameParseHeader] at h
  obtain ⟨-, h⟩ := else_of_ite_eq (by simp) h
  obtain ⟨-, h⟩ := else_of_ite_eq (by simp) h
  cases hop : WsOpcode.ofByte (buf.getD 0 0 &&& 0x0f) with
  | none =>
    rw [hop] at h
    cases h
  | some op =>
    rw [hop] at h
    obtain ⟨hctl, h⟩ := else_of_ite_eq (by simp) h
    obtain ⟨-, h⟩ := else_of_ite_eq (by simp) h
    obtain ⟨-, h⟩ := else_of_ite_eq (by simp) h
    obtain ⟨hwhole, h⟩ := else_of_ite_eq (by simp) h
    obtain rfl := WsParse.ok.inj h
    exact ⟨rfl, Nat.not_lt.mp hwhole, rfl, fun hc => Nat.not_lt.mp fun hlt => hctl ⟨hc, Or.inl hlt⟩⟩

/-- A parsed header has arrived. -/
theorem parseHeader_ok_bounds {buf : List UInt8} {hdr : WsFrameHeader}
    (h : wsFrameParseHeader buf = .ok hdr) :
    2 ≤ hdr.headerLen ∧ hdr.headerLen ≤ wsFrameMaxHeaderLen ∧ hdr.headerLen ≤ buf.length := by
  obtain ⟨hlen, hle, -, -⟩ := parseHeader_ok_inv h
  have hbounds := wsHeaderLen_bounds (buf.getD 1 0)
  rw [hlen]
  exact ⟨hbounds.1, hbounds.2, hle⟩

/-- A control frame carries its length in the second byte. -/
theorem parseHeader_control_le {buf : List UInt8} {hdr : WsFrameHeader}
    (h : wsFrameParseHeader buf = .ok hdr) (hctl : hdr.opcode.isControl = true) :
    hdr.payloadLen ≤ wsFrameMaxControlPayload := by
  obtain ⟨-, -, hpay, hsmall⟩ := parseHeader_ok_inv h
  have hle := hsmall hctl
  have hext : wsExtLen (buf.getD 1 0 &&& 0x7f) = 0 := by
    unfold wsExtLen
    rw [if_neg (fun heq => by rw [heq] at hle; revert hle; decide),
      if_neg (fun heq => by rw [heq] at hle; revert hle; decide)]
  rw [hpay, wsPayloadLen, if_pos hext]
  exact hle

theorem slice_append_of_le (buf more : List UInt8) (off n : Nat) (h : off + n ≤ buf.length) :
    slice (buf ++ more) off n = slice buf off n := by
  rw [slice, slice, List.drop_append_of_le_length (by omega),
    List.take_append_of_le_length (by rw [List.length_drop]; omega)]

/-- What the parser has decided it does not take back when more arrives. -/
theorem parseHeader_append (buf more : List UInt8) (h : wsFrameParseHeader buf ≠ .incomplete) :
    wsFrameParseHeader (buf ++ more) = wsFrameParseHeader buf := by
  have hlen : 2 ≤ buf.length := by
    by_contra hshort
    exact h (by rw [wsFrameParseHeader, if_pos (by omega)])
  unfold wsFrameParseHeader at h ⊢
  rw [List.getD_append buf more 0 0 (by omega), List.getD_append buf more 0 1 (by omega),
    List.length_append]
  rw [if_neg (show ¬ buf.length + more.length < 2 by omega), if_neg (show ¬ buf.length < 2 by omega)]
  rw [if_neg (show ¬ buf.length < 2 by omega)] at h
  by_cases h70 : buf.getD 0 0 &&& 0x70 ≠ 0
  · rw [if_pos h70, if_pos h70]
  · rw [if_neg h70] at h
    rw [if_neg h70, if_neg h70]
    cases hop : WsOpcode.ofByte (buf.getD 0 0 &&& 0x0f) with
    | none => rfl
    | some op =>
      rw [hop] at h
      dsimp only at h ⊢
      by_cases hctl : op.isControl = true
          ∧ (wsFrameMaxControlPayload < (buf.getD 1 0 &&& 0x7f).toNat ∨ buf.getD 0 0 &&& 0x80 = 0)
      · rw [if_pos hctl, if_pos hctl]
      · rw [if_neg hctl] at h
        rw [if_neg hctl, if_neg hctl]
        by_cases hext : buf.length < 2 + wsExtLen (buf.getD 1 0 &&& 0x7f)
        · exact absurd (if_pos hext) h
        · rw [if_neg hext] at h
          have hpay : wsPayloadLen (buf ++ more) (buf.getD 1 0 &&& 0x7f)
              = wsPayloadLen buf (buf.getD 1 0 &&& 0x7f) := by
            rw [wsPayloadLen, wsPayloadLen, slice_append_of_le _ _ _ _ (by omega)]
          rw [if_neg hext, if_neg (by omega), hpay]
          by_cases hbig : wsExtLen (buf.getD 1 0 &&& 0x7f) = 8
              ∧ 2 ^ 63 ≤ wsPayloadLen buf (buf.getD 1 0 &&& 0x7f)
          · rw [if_pos hbig, if_pos hbig]
          · rw [if_neg hbig] at h
            rw [if_neg hbig, if_neg hbig]
            by_cases hwhole : buf.length < wsHeaderLen (buf.getD 1 0)
            · exact absurd (if_pos hwhole) h
            · rw [if_neg hwhole, if_neg (by omega)]
              congr 2
              split
              · next hmask =>
                rw [slice_append_of_le]
                rw [wsHeaderLen, if_pos hmask] at hwhole
                omega
              · rfl

end Cloak
