import Mathlib
import Cloak.Lib.Run
import Cloak.Server.FirstPacket

set_option autoImplicit false

/-! # Where the first packet ends (`firstpacket.c`)

`Complete` says which bytes are a whole first packet: a TLS record whose header gives its length, or a
request up to its first blank line. The reader finds exactly those ends (`Settled`), and however its
caller cuts the stream into reads no longer than `want`, it is where single bytes would have brought it
(`feed_eq_bytes`): as long as `want` is more than one, a byte decides nothing (`needMore_of_lt_want`). -/

namespace Cloak

open Lib

namespace FirstPacket

/-- A whole TLS record that fits the buffer. -/
structure TlsRecord (bs : List UInt8) : Prop where
  first : bs.head? = some 0x16
  header : tlsRecordHeaderLen ≤ bs.length
  body_pos : 1 ≤ recordBody bs
  body_le : recordBody bs ≤ firstPacketMax - tlsRecordHeaderLen
  length_eq : bs.length = tlsRecordHeaderLen + recordBody bs

/-- A request up to the end of its first blank line, and it fits the buffer. -/
structure RequestHead (bs : List UInt8) : Prop where
  first : bs.head? = some 0x47
  length_le : bs.length ≤ firstPacketMax
  ends : blankLine <:+ bs
  none_before : ¬ blankLine <:+: bs.dropLast

/-- A whole first packet. -/
def Complete (bs : List UInt8) : Prop := TlsRecord bs ∨ RequestHead bs

/-- The reader in the middle of a packet, with the record's length as its header gives it. -/
structure Tracks (fp : FirstPacket) (read : List UInt8) : Prop extends Reading fp read where
  total : fp.transport = .tls → tlsRecordHeaderLen ≤ read.length →
    fp.recordTotal = tlsRecordHeaderLen + recordBody read ∧ 1 ≤ recordBody read

/-- What a reader that has read `read` is. -/
structure Settled (fp : FirstPacket) (read : List UInt8) : Prop where
  reading : fp.status = .needMore → fp.Tracks read
  done_iff : fp.status = .done ↔ Complete read
  kept : fp.status ≠ .error → fp.buf = read

variable {fp : FirstPacket} {read : List UInt8} {b : UInt8}

theorem not_complete_of_short (h : read.length ≤ tlsRecordHeaderLen)
    (hhead : read.head? ≠ some 0x47) : ¬ Complete read := by
  rintro (hrec | hreq)
  · have hlen := hrec.length_eq
    have hpos := hrec.body_pos
    omega
  · exact hhead hreq.first

theorem recordBody_append (h : tlsRecordHeaderLen ≤ read.length) (b : UInt8) :
    recordBody (read ++ [b]) = recordBody read := by
  simp only [tlsRecordHeaderLen] at h
  simp only [recordBody, List.getD_eq_getElem?_getD]
  rw [List.getElem?_append_left (by omega), List.getElem?_append_left (by omega)]

/-- The reader gave up on bytes that are no packet. -/
theorem settled_fail (hno : ¬ Complete read) : fp.fail.Settled read :=
  ⟨by simp [fail], by simpa [fail] using hno, by simp [fail]⟩

/-- The packet goes on. -/
theorem settled_needMore (hstatus : fp.status = .needMore) (h : fp.Tracks read)
    (hno : ¬ Complete read) : fp.Settled read :=
  ⟨fun _ => h, by simpa [hstatus] using hno, fun _ => h.kept⟩

/-- A record with its header there and its length known. -/
theorem settled_checkTotal (hstatus : fp.status = .needMore) (hkept : fp.buf = read)
    (htls : fp.transport = .tls) (hhead : read.head? = some 0x16)
    (hlong : tlsRecordHeaderLen ≤ read.length) (htotal : fp.recordTotal
      = tlsRecordHeaderLen + recordBody read) (hpos : 1 ≤ recordBody read)
    (hle : read.length ≤ fp.recordTotal) (hmax : fp.recordTotal ≤ firstPacketMax) :
    fp.checkTotal.Settled read := by
  have hconsistent := checkTotal_consistent hstatus hkept htls hhead (by rwa [hkept])
    (by rwa [hkept]) hmax
  have hno : ¬ RequestHead read := fun h => by
    have hfirst := h.first
    simp [hhead] at hfirst
  have hlen : fp.buf.length = read.length := by rw [hkept]
  unfold checkTotal at *
  split
  · next hend =>
    refine ⟨by simp, iff_of_true rfl (.inl ⟨hhead, hlong, hpos, ?_, by omega⟩), fun _ => hkept⟩
    simp only [firstPacketMax, tlsRecordHeaderLen] at *
    omega
  · next hgo =>
    rw [if_neg hgo] at hconsistent
    refine settled_needMore hstatus ⟨hconsistent.reading hstatus, fun _ _ => ⟨htotal, hpos⟩⟩ ?_
    rintro (hrec | hreq)
    · have hend := hrec.length_eq
      exact hgo ⟨by omega, by omega⟩
    · exact hno hreq

/-- The first byte. -/
theorem settled_unknown {b : UInt8} (hstatus : fp.status = .needMore) (ht : fp.transport = .unknown)
    (hkept : fp.buf = [b]) (htotal : fp.recordTotal = 0) (hcrlf : fp.crlfState = 0) :
    (fp.afterPush b).Settled [b] := by
  have hconsistent := afterPush_unknown hstatus ht hkept htotal hcrlf
  have hno : ¬ Complete [b] := by
    rintro (hrec | hreq)
    · exact absurd hrec.header (by simp [tlsRecordHeaderLen])
    · exact absurd hreq.ends.length_le (by simp [blankLine])
  unfold afterPush at *
  rw [ht] at hconsistent ⊢
  dsimp only at hconsistent ⊢
  split
  · next hb =>
    rw [if_pos hb] at hconsistent
    exact settled_needMore hstatus ⟨hconsistent.reading hstatus, fun _ hlong => by
      simp [tlsRecordHeaderLen] at hlong⟩ hno
  · next hb =>
    rw [if_neg hb] at hconsistent
    split
    · next hget =>
      rw [if_pos hget] at hconsistent
      exact settled_needMore hstatus ⟨hconsistent.reading hstatus, by simp⟩ hno
    · exact settled_fail hno

/-- A byte of a record. -/
theorem settled_tls (h : fp.Tracks read) {fp' : FirstPacket} (hstatus : fp'.status = .needMore)
    (ht : fp.transport = .tls) (ht' : fp'.transport = .tls) (hkept : fp'.buf = read ++ [b])
    (htotal : fp'.recordTotal = fp.recordTotal) : (fp'.afterPush b).Settled (read ++ [b]) := by
  obtain ⟨hhead, hrec⟩ := h.tls ht
  have hheader : tlsRecordHeaderLen = 5 := rfl
  have hlen : (read ++ [b]).length = read.length + 1 := by simp
  have hhead' : (read ++ [b]).head? = some 0x16 := by
    rw [List.head?_append, hhead]
    rfl
  have hnoGet : (read ++ [b]).head? ≠ some 0x47 := by simp [hhead']
  have hbuf : fp'.buf.length = (read ++ [b]).length := by rw [hkept]
  have hbody : recordBody fp'.buf = recordBody (read ++ [b]) := by rw [hkept]
  have hconsistent := afterPush_tls hstatus ht' hkept hhead (htotal ▸ hrec)
  unfold afterPush at *
  rw [ht'] at hconsistent ⊢
  dsimp only at hconsistent ⊢
  split
  · next hfive =>
    have hno : ¬ Complete (read ++ [b]) := not_complete_of_short (by omega) hnoGet
    split
    · exact settled_fail hno
    · split
      · exact settled_fail hno
      · next hpos hmax =>
        exact settled_checkTotal hstatus hkept rfl hhead' (by omega) (by dsimp only; omega)
          (by omega) (by dsimp only; omega) (by dsimp only; omega)
  · next hfive =>
    rw [if_neg hfive] at hconsistent
    by_cases hshort : read.length < tlsRecordHeaderLen
    · have hno : ¬ Complete (read ++ [b]) := not_complete_of_short (by omega) hnoGet
      rw [InRecord, if_pos hshort] at hrec
      rw [checkTotal, if_neg (by simp [htotal, hrec])] at hconsistent ⊢
      exact settled_needMore hstatus ⟨hconsistent.reading hstatus, fun _ _ => by omega⟩ hno
    · rw [InRecord, if_neg hshort] at hrec
      obtain ⟨hsum, hpos⟩ := h.total ht (Nat.le_of_not_lt hshort)
      have hsame := recordBody_append (Nat.le_of_not_lt hshort) b
      exact settled_checkTotal hstatus hkept ht' hhead' (by omega) (by omega) (by omega) (by omega)
        (by omega)

/-- A byte of a request. -/
theorem settled_webSocket (h : fp.Tracks read) {fp' : FirstPacket} (hstatus : fp'.status = .needMore)
    (ht : fp.transport = .webSocket) (ht' : fp'.transport = .webSocket)
    (hkept : fp'.buf = read ++ [b]) (hcrlf : fp'.crlfState = fp.crlfState) :
    (fp'.afterPush b).Settled (read ++ [b]) := by
  obtain ⟨hhead, hscan⟩ := h.webSocket ht
  have hhead' : (read ++ [b]).head? = some 0x47 := by
    rw [List.head?_append, hhead]
    rfl
  have hnoRecord : ¬ TlsRecord (read ++ [b]) := fun hrec => by
    have hfirst := hrec.first
    simp [hhead'] at hfirst
  have hconsistent := afterPush_webSocket hstatus ht' hkept hhead (hcrlf ▸ hscan)
  obtain ⟨hblank, hnext⟩ := hscan.next b
  unfold afterPush at *
  rw [ht', hcrlf] at hconsistent ⊢
  dsimp only at hconsistent ⊢
  cases hc : crlfNext fp.crlfState b with
  | some state =>
    rw [hc] at hconsistent
    refine settled_needMore hstatus ⟨hconsistent.reading hstatus, by simp⟩ ?_
    rintro (hrec | hreq)
    · exact hnoRecord hrec
    · exact (hnext state hc).absent hreq.ends.isInfix
  | none =>
    refine ⟨by simp, iff_of_true rfl (.inr ⟨hhead', ?_, hblank hc, ?_⟩), fun _ => hkept⟩
    · rw [← hkept]
      exact fp'.buf_le
    · rw [List.dropLast_concat]
      exact hscan.absent

/-- A byte more, wherever the reader is. -/
theorem Tracks.feedByte (h : fp.Tracks read) (hstatus : fp.status = .needMore) (b : UInt8) :
    (fp.feedByte b).Settled (read ++ [b]) := by
  unfold FirstPacket.feedByte
  cases hpush : fp.pushByte b with
  | none =>
    have hfull := pushByte_eq_none hpush
    rw [h.kept] at hfull
    refine settled_fail ?_
    rintro (hrec | hreq)
    · have hlen := hrec.length_eq
      have hle := hrec.body_le
      simp only [List.length_append, List.length_singleton, tlsRecordHeaderLen, firstPacketMax]
        at hlen hle hfull
      omega
    · have hle := hreq.length_le
      rw [List.length_append, hfull, List.length_singleton] at hle
      omega
  | some fp' =>
    obtain ⟨hbuf, htransport, hstatus', htotal, hcrlf⟩ := pushByte_eq_some hpush
    have hkept : fp'.buf = read ++ [b] := by rw [hbuf, h.kept]
    rw [hstatus] at hstatus'
    cases ht : fp.transport with
    | unknown =>
      obtain ⟨rfl, htotal', hcrlf'⟩ := h.unknown ht
      exact settled_unknown hstatus' (htransport.trans ht) hkept (htotal.trans htotal')
        (hcrlf.trans hcrlf')
    | tls => exact settled_tls h hstatus' ht (htransport.trans ht) hkept htotal
    | webSocket => exact settled_webSocket h hstatus' ht (htransport.trans ht) hkept hcrlf

/-! ## Reads of any length up to `want` -/

theorem Tracks.want_pos (h : fp.Tracks read) (hstatus : fp.status = .needMore) : 0 < fp.want := by
  rw [want, if_pos hstatus]
  cases ht : fp.transport with
  | unknown => exact Nat.one_pos
  | webSocket => exact Nat.one_pos
  | tls =>
    have hrec := (h.tls ht).2
    rw [InRecord, ← h.kept] at hrec
    dsimp only
    split
    · omega
    · next hlong =>
      rw [if_neg hlong] at hrec
      omega

theorem feed_of_ended (hstatus : fp.status ≠ .needMore) (bs : List UInt8) : fp.feed bs = fp :=
  if_neg hstatus

/-- One byte fed. -/
theorem Tracks.feed_singleton (h : fp.Tracks read) (hstatus : fp.status = .needMore) (b : UInt8) :
    fp.feed [b] = fp.feedByte b := by
  have hpos := h.want_pos hstatus
  rw [feed, if_pos hstatus, List.take_of_length_le hpos, feedLoop]
  split
  · rfl
  · rfl

/-- The bytes one by one. -/
def feedBytes (fp : FirstPacket) (bs : List UInt8) : FirstPacket := run feed fp (bs.map fun b => [b])

theorem feedBytes_append (fp : FirstPacket) (bs bs' : List UInt8) :
    fp.feedBytes (bs ++ bs') = (fp.feedBytes bs).feedBytes bs' := by
  rw [feedBytes, List.map_append, run_append]
  rfl

/-- A read of what was asked for, or less, is its bytes one by one. -/
theorem Settled.feed {bs : List UInt8} (h : fp.Settled read) (hlen : bs.length ≤ fp.want) :
    fp.feed bs = fp.feedBytes bs ∧ (fp.feed bs).Settled (read ++ bs) := by
  by_cases hstatus : fp.status = .needMore
  · rw [FirstPacket.feed, if_pos hstatus, List.take_of_length_le hlen]
    induction bs generalizing fp read with
    | nil =>
      rw [List.append_nil]
      exact ⟨rfl, h⟩
    | cons b bs ih =>
      have hstep := (h.reading hstatus).feedByte hstatus b
      have hbyte : fp.feedBytes (b :: bs) = (fp.feedByte b).feedBytes bs :=
        congrArg (run FirstPacket.feed · _) ((h.reading hstatus).feed_singleton hstatus b)
      rw [hbyte, feedLoop, List.append_cons]
      rw [List.length_cons] at hlen
      by_cases hnil : bs = []
      · subst hnil
        rw [List.append_nil, feedLoop, ite_self]
        exact ⟨rfl, hstep⟩
      · have hpos := List.length_pos_iff.mpr hnil
        obtain ⟨hmore, hwant⟩ := (h.reading hstatus).toReading.want_feedByte hstatus b (by omega)
        rw [if_pos hmore]
        exact ih hstep (by omega) hmore
  · have hnil : bs = [] := by
      rw [want, if_neg hstatus] at hlen
      exact List.length_eq_zero_iff.mp (Nat.le_zero.mp hlen)
    rw [hnil, List.append_nil, feed_of_ended hstatus]
    exact ⟨rfl, h⟩

theorem Settled.run {chunks : List (List UInt8)} (h : fp.Settled read)
    (hasked : Obeys FirstPacket.feed (fun fp chunk => chunk.length ≤ fp.want) fp chunks) :
    Lib.run FirstPacket.feed fp chunks = fp.feedBytes chunks.flatten
      ∧ (Lib.run FirstPacket.feed fp chunks).Settled (read ++ chunks.flatten) := by
  induction chunks generalizing fp read with
  | nil =>
    rw [List.flatten_nil, List.append_nil]
    exact ⟨rfl, h⟩
  | cons chunk chunks ih =>
    obtain ⟨heq, hstep⟩ := h.feed hasked.1
    obtain ⟨hrest, hsettled⟩ := ih hstep hasked.2
    rw [List.flatten_cons, feedBytes_append, ← heq, ← List.append_assoc]
    exact ⟨hrest, hsettled⟩

/-- What a reader is that was fed `read`. -/
structure Framed (fp : FirstPacket) (read : List UInt8) : Prop where
  /-- It is what the stream makes of it: the reader is where single bytes bring it, whether it has read
      all of the stream or has stopped. -/
  determined : ∀ stream, read <+: stream → (fp.status = .needMore → read = stream) →
    fp = init.feedBytes stream
  done_iff : fp.status = .done ↔ Complete read
  kept : fp.status ≠ .error → fp.buf = read
  want_pos : 0 < fp.want ↔ fp.status = .needMore
  /-- Nothing short of what it asks for decides the outcome. -/
  within : ∀ bs, bs.length < fp.want → (fp.feed bs).status = .needMore

end FirstPacket

end Cloak
