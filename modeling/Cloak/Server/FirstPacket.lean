import Mathlib

set_option autoImplicit false

/-! # The first-packet reader (`firstpacket.c`)

The reader collects a connection's first packet: a TLS record, whose header says how long it is, or
an HTTP request, which ends with a blank line. `want` says how many bytes the caller is to read
next, never more than the packet has left.

`Consistent` is what every byte keeps. It says of each state which bytes were read to get there:
those kept, except when a request fills the buffer, for then one more byte was read and not kept. -/

namespace Cloak

/-- `CLOAK_FIRSTPACKET_MAX`. -/
def firstPacketMax : Nat := 3000

def tlsRecordHeaderLen : Nat := 5

/-- `cloak_firstpacket_status_t`. -/
inductive FirstPacketStatus where
  | needMore
  | done
  | error
deriving DecidableEq, Repr

/-- `cloak_firstpacket_transport_t`. -/
inductive FirstPacketTransport where
  | unknown
  | tls
  | webSocket
deriving DecidableEq, Repr

/-- `cloak_firstpacket_t`. -/
structure FirstPacket where
  buf : List UInt8
  transport : FirstPacketTransport
  status : FirstPacketStatus
  recordTotal : Nat
  crlfState : Nat
  redirectOnError : Bool
  buf_le : buf.length ≤ firstPacketMax

namespace FirstPacket

/-- `cloak_firstpacket_init`. -/
def init : FirstPacket := ⟨[], .unknown, .needMore, 0, 0, false, Nat.zero_le _⟩

/-- `cloak_firstpacket_want`. -/
def want (fp : FirstPacket) : Nat :=
  if fp.status = .needMore then
    match fp.transport with
    | .unknown => 1
    | .tls =>
      if fp.buf.length < tlsRecordHeaderLen then tlsRecordHeaderLen - fp.buf.length
      else fp.recordTotal - fp.buf.length
    | .webSocket => 1
  else 0

def fail (fp : FirstPacket) : FirstPacket := { fp with status := .error, redirectOnError := true }

/-- `push_byte`. -/
def pushByte (fp : FirstPacket) (b : UInt8) : Option FirstPacket :=
  if h : fp.buf.length < firstPacketMax then
    some { fp with buf := fp.buf ++ [b], buf_le := by rw [List.length_append]; exact h }
  else none

/-- The length in a record header. -/
def recordBody (buf : List UInt8) : Nat := (buf.getD 3 0).toNat * 2 ^ 8 + (buf.getD 4 0).toNat

/-- The end of the TLS branch: is the record complete? -/
def checkTotal (fp : FirstPacket) : FirstPacket :=
  if fp.recordTotal ≠ 0 ∧ fp.buf.length = fp.recordTotal then { fp with status := .done } else fp

/-- The matching of CR, LF, CR, LF; `none` is a match. -/
def crlfNext (state : Nat) (b : UInt8) : Option Nat :=
  if b = 13 then some (if state = 2 then 3 else 1)
  else if b = 10 then
    if state = 1 then some 2
    else if state = 3 then none
    else some 0
  else some 0

/-- What the loop does with a byte once it is in the buffer. -/
def afterPush (fp : FirstPacket) (b : UInt8) : FirstPacket :=
  match fp.transport with
  | .unknown =>
    if b = 0x16 then { fp with transport := .tls }
    else if b = 0x47 then { fp with transport := .webSocket }
    else fp.fail
  | .tls =>
    if fp.buf.length = tlsRecordHeaderLen then
      -- a record with no body is not a ClientHello, and a large one does not fit
      if recordBody fp.buf = 0 then fp.fail
      else if firstPacketMax < tlsRecordHeaderLen + recordBody fp.buf then fp.fail
      else { fp with recordTotal := tlsRecordHeaderLen + recordBody fp.buf }.checkTotal
    else fp.checkTotal
  | .webSocket =>
    match crlfNext fp.crlfState b with
    | some state => { fp with crlfState := state }
    | none => { fp with status := .done }

/-- A turn of the loop of `cloak_firstpacket_feed`. -/
def feedByte (fp : FirstPacket) (b : UInt8) : FirstPacket :=
  match fp.pushByte b with
  | none => fp.fail
  | some fp => fp.afterPush b

/-- The loop of `cloak_firstpacket_feed`, which returns as soon as the packet is complete or
    refused. -/
def feedLoop (fp : FirstPacket) : List UInt8 → FirstPacket
  | [] => fp
  | b :: bs =>
    if (fp.feedByte b).status = .needMore then (fp.feedByte b).feedLoop bs else fp.feedByte b

/-- `cloak_firstpacket_feed`. -/
def feed (fp : FirstPacket) (bs : List UInt8) : FirstPacket :=
  if fp.status = .needMore then fp.feedLoop (bs.take fp.want) else fp

/-! ## The blank line -/

/-- CR, LF, CR, LF. -/
def blankLine : List UInt8 := [13, 10, 13, 10]

/-- There is no blank line in `bs`, and the longest beginning of one that ends `bs` has length
    `state`. -/
structure Scanned (bs : List UInt8) (state : Nat) : Prop where
  absent : ¬ blankLine <:+: bs
  lt : state < 4
  one : [13] <:+ bs ↔ state = 1 ∨ state = 3
  two : [13, 10] <:+ bs ↔ state = 2
  three : [13, 10, 13] <:+ bs ↔ state = 3

theorem concat_suffix_concat {l l' : List UInt8} {a b : UInt8} :
    l ++ [a] <:+ l' ++ [b] ↔ l <:+ l' ∧ b = a := by
  rw [← List.reverse_prefix, List.reverse_concat, List.reverse_concat, List.cons_prefix_cons,
    List.reverse_prefix, and_comm, eq_comm]

/-- The machine of `crlfNext` is right about the blank line. -/
theorem Scanned.next {bs : List UInt8} {state : Nat} (h : Scanned bs state) (b : UInt8) :
    (crlfNext state b = none → blankLine <:+ bs ++ [b]) ∧
      ∀ state', crlfNext state b = some state' → Scanned (bs ++ [b]) state' := by
  -- a beginning of a blank line ends the longer list if the one before it ends the shorter
  have hone : [13] <:+ bs ++ [b] ↔ b = 13 := by
    rw [← List.nil_append [13], concat_suffix_concat]
    simp
  have htwo : [13, 10] <:+ bs ++ [b] ↔ (state = 1 ∨ state = 3) ∧ b = 10 := by
    rw [← h.one, ← concat_suffix_concat]
    rfl
  have hthree : [13, 10, 13] <:+ bs ++ [b] ↔ state = 2 ∧ b = 13 := by
    rw [← h.two, ← concat_suffix_concat]
    rfl
  have hfour : blankLine <:+ bs ++ [b] ↔ state = 3 ∧ b = 10 := by
    rw [← h.three, ← concat_suffix_concat]
    rfl
  have habsent : ¬ (state = 3 ∧ b = 10) → ¬ blankLine <:+: bs ++ [b] := by
    intro hne hin
    rcases List.infix_concat_iff.mp hin with hend | hold
    · exact hne (hfour.mp hend)
    · exact h.absent hold
  unfold crlfNext
  by_cases hcr : b = 13
  · rw [if_pos hcr]
    refine ⟨by simp, fun state' hs => ?_⟩
    obtain rfl := Option.some.inj hs
    refine ⟨habsent (by simp [hcr]), by split <;> decide, ?_, ?_, ?_⟩
    · rw [hone]
      split <;> simp [hcr]
    · rw [htwo]
      split <;> simp [hcr]
    · rw [hthree]
      split <;> simp_all
  · rw [if_neg hcr]
    by_cases hlf : b = 10
    · rw [if_pos hlf]
      by_cases hs1 : state = 1
      · rw [if_pos hs1]
        refine ⟨by simp, fun state' hs => ?_⟩
        obtain rfl := Option.some.inj hs
        exact ⟨habsent (by simp [hs1]), by decide, by simp [hone, hcr],
          by rw [htwo]; simp [hs1, hlf], by simp [hthree, hcr]⟩
      · rw [if_neg hs1]
        by_cases hs3 : state = 3
        · rw [if_pos hs3]
          exact ⟨fun _ => hfour.mpr ⟨hs3, hlf⟩, by simp⟩
        · rw [if_neg hs3]
          refine ⟨by simp, fun state' hs => ?_⟩
          obtain rfl := Option.some.inj hs
          exact ⟨habsent (by simp [hs3]), by decide, by simp [hone, hcr], by simp [htwo, hs1, hs3],
            by simp [hthree, hcr]⟩
    · rw [if_neg hlf]
      refine ⟨by simp, fun state' hs => ?_⟩
      obtain rfl := Option.some.inj hs
      exact ⟨habsent (by simp [hlf]), by decide, by simp [hone, hcr], by simp [htwo, hlf],
        by simp [hthree, hcr]⟩

/-! ## What every byte keeps -/

/-- `len` bytes of a record: its header, once there, says how long it will be. -/
def InRecord (len recordTotal : Nat) : Prop :=
  if len < tlsRecordHeaderLen then recordTotal = 0
  else len < recordTotal ∧ recordTotal ≤ firstPacketMax

/-- What the reader knows of the bytes it read so far. -/
structure Reading (fp : FirstPacket) (read : List UInt8) : Prop where
  kept : fp.buf = read
  unknown : fp.transport = .unknown → read = [] ∧ fp.recordTotal = 0 ∧ fp.crlfState = 0
  tls : fp.transport = .tls → read.head? = some 0x16 ∧ InRecord read.length fp.recordTotal
  webSocket : fp.transport = .webSocket → read.head? = some 0x47 ∧ Scanned read fp.crlfState

/-- How reading ended: with all bytes kept, a blank line among them if they are a request, or with
    one byte more than a request without one may have. -/
def Ended (fp : FirstPacket) (read : List UInt8) : Prop :=
  (fp.buf = read ∧ (read.head? = some 0x47 → blankLine <:+: read)) ∨
    (∃ b, read = fp.buf ++ [b] ∧ fp.buf.head? = some 0x47 ∧ fp.buf.length = firstPacketMax ∧
      ¬ blankLine <:+: fp.buf)

/-- What every byte keeps. -/
def Consistent (fp : FirstPacket) (read : List UInt8) : Prop :=
  if fp.status = .needMore then fp.Reading read else fp.Ended read

theorem init_reading : init.Reading [] :=
  ⟨rfl, fun _ => ⟨rfl, rfl, rfl⟩, by simp [init], by simp [init]⟩

variable {fp : FirstPacket} {read : List UInt8}

theorem Consistent.reading (h : fp.Consistent read) (hstatus : fp.status = .needMore) :
    fp.Reading read := by
  rwa [Consistent, if_pos hstatus] at h

theorem Consistent.ended (h : fp.Consistent read) (hstatus : fp.status ≠ .needMore) :
    fp.Ended read := by
  rwa [Consistent, if_neg hstatus] at h

theorem pushByte_eq_some {fp' : FirstPacket} {b : UInt8} (h : fp.pushByte b = some fp') :
    fp'.buf = fp.buf ++ [b] ∧ fp'.transport = fp.transport ∧ fp'.status = fp.status ∧
      fp'.recordTotal = fp.recordTotal ∧ fp'.crlfState = fp.crlfState := by
  unfold pushByte at h
  split at h
  · cases h
    exact ⟨rfl, rfl, rfl, rfl, rfl⟩
  · cases h

theorem pushByte_eq_none {b : UInt8} (h : fp.pushByte b = none) :
    fp.buf.length = firstPacketMax := by
  unfold pushByte at h
  split at h
  · cases h
  · rename_i hfull
    exact Nat.le_antisymm fp.buf_le (not_lt.mp hfull)

/-- Refusing what cannot be a request. -/
theorem fail_consistent (hkept : fp.buf = read) (hhead : read.head? ≠ some 0x47) :
    fp.fail.Consistent read :=
  Or.inl ⟨hkept, fun h => absurd h hhead⟩

/-- With the record header there, the record is complete, or it is not yet. -/
theorem checkTotal_consistent (hstatus : fp.status = .needMore) (hkept : fp.buf = read)
    (htls : fp.transport = .tls) (hhead : read.head? = some 0x16)
    (hlong : tlsRecordHeaderLen ≤ fp.buf.length) (hle : fp.buf.length ≤ fp.recordTotal)
    (hmax : fp.recordTotal ≤ firstPacketMax) : fp.checkTotal.Consistent read := by
  unfold checkTotal
  split
  · exact Or.inl ⟨hkept, fun h => by simp [hhead] at h⟩
  · rename_i hne
    have hlt : fp.buf.length < fp.recordTotal := by
      have hpos : 0 < tlsRecordHeaderLen := by decide
      have hzero : fp.recordTotal ≠ 0 := by omega
      have := fun heq => hne ⟨hzero, heq⟩
      omega
    rw [Consistent, if_pos hstatus]
    refine ⟨hkept, by simp [htls], fun _ => ⟨hhead, ?_⟩, by simp [htls]⟩
    rw [← hkept, InRecord, if_neg (not_lt.mpr hlong)]
    exact ⟨hlt, hmax⟩

theorem scanned_get : Scanned [0x47] 0 :=
  ⟨by decide, by decide, by decide, by decide, by decide⟩

/-- The first byte decides which protocol this is. -/
theorem afterPush_unknown {b : UInt8} (hstatus : fp.status = .needMore)
    (ht : fp.transport = .unknown) (hkept : fp.buf = [b]) (htotal : fp.recordTotal = 0)
    (hcrlf : fp.crlfState = 0) : (fp.afterPush b).Consistent [b] := by
  unfold afterPush
  rw [ht]
  dsimp only
  split
  · rename_i hb
    rw [Consistent, if_pos hstatus]
    refine ⟨hkept, by simp, fun _ => ⟨by simp [hb], ?_⟩, by simp⟩
    rw [InRecord, if_pos (by simp [tlsRecordHeaderLen])]
    exact htotal
  · split
    · rename_i hb
      rw [Consistent, if_pos hstatus]
      refine ⟨hkept, by simp, by simp, fun _ => ⟨by simp [hb], ?_⟩⟩
      dsimp only
      rw [hb, hcrlf]
      exact scanned_get
    · rename_i hb
      exact fail_consistent hkept (by simpa using hb)

theorem afterPush_tls {b : UInt8} (hstatus : fp.status = .needMore) (ht : fp.transport = .tls)
    (hkept : fp.buf = read ++ [b]) (hhead : read.head? = some 0x16)
    (hrec : InRecord read.length fp.recordTotal) : (fp.afterPush b).Consistent (read ++ [b]) := by
  have hlen : fp.buf.length = read.length + 1 := by rw [hkept, List.length_append]; rfl
  have hhead' : (read ++ [b]).head? = some 0x16 := by
    rw [List.head?_append, hhead]
    rfl
  have hne : (read ++ [b]).head? ≠ some 0x47 := by simp [hhead']
  have hheader : tlsRecordHeaderLen = 5 := rfl
  unfold afterPush
  rw [ht]
  dsimp only
  split
  · rename_i hfive
    split
    · exact fail_consistent hkept hne
    · split
      · exact fail_consistent hkept hne
      · rename_i hbody hmax
        refine checkTotal_consistent hstatus hkept rfl hhead' ?_ ?_ ?_
        all_goals dsimp only
        · omega
        · omega
        · exact not_lt.mp hmax
  · rename_i hfive
    by_cases hshort : read.length < tlsRecordHeaderLen
    · rw [InRecord, if_pos hshort] at hrec
      rw [checkTotal, if_neg (by simp [hrec]), Consistent, if_pos hstatus]
      refine ⟨hkept, by simp [ht], fun _ => ⟨hhead', ?_⟩, by simp [ht]⟩
      rw [← hkept, InRecord, if_pos (by omega)]
      exact hrec
    · rw [InRecord, if_neg hshort] at hrec
      exact checkTotal_consistent hstatus hkept ht hhead' (by omega) (by omega) hrec.2

theorem afterPush_webSocket {b : UInt8} (hstatus : fp.status = .needMore)
    (ht : fp.transport = .webSocket) (hkept : fp.buf = read ++ [b])
    (hhead : read.head? = some 0x47) (hscan : Scanned read fp.crlfState) :
    (fp.afterPush b).Consistent (read ++ [b]) := by
  have hhead' : (read ++ [b]).head? = some 0x47 := by
    rw [List.head?_append, hhead]
    rfl
  obtain ⟨hblank, hnext⟩ := hscan.next b
  unfold afterPush
  rw [ht]
  dsimp only
  cases hc : crlfNext fp.crlfState b with
  | some state =>
    dsimp only
    rw [Consistent, if_pos hstatus]
    exact ⟨hkept, by simp, by simp, fun _ => ⟨hhead', hnext state hc⟩⟩
  | none => exact Or.inl ⟨hkept, fun _ => (hblank hc).isInfix⟩

/-- A byte more. -/
theorem Reading.feedByte (h : fp.Reading read) (hstatus : fp.status = .needMore) (b : UInt8) :
    (fp.feedByte b).Consistent (read ++ [b]) := by
  unfold FirstPacket.feedByte
  cases hpush : fp.pushByte b with
  | none =>
    have hfull := pushByte_eq_none hpush
    rw [h.kept] at hfull
    -- only a request can fill the buffer
    cases ht : fp.transport with
    | unknown =>
      rw [(h.unknown ht).1] at hfull
      exact absurd hfull (by decide)
    | tls =>
      have hrec := (h.tls ht).2
      rw [InRecord, hfull, if_neg (by decide)] at hrec
      omega
    | webSocket =>
      obtain ⟨hhead, hscan⟩ := h.webSocket ht
      have hbuf : fp.fail.buf = read := h.kept
      exact Or.inr ⟨b, by rw [hbuf], by rw [hbuf]; exact hhead, by rw [hbuf]; exact hfull,
        by rw [hbuf]; exact hscan.absent⟩
  | some fp' =>
    obtain ⟨hbuf, htransport, hstatus', htotal, hcrlf⟩ := pushByte_eq_some hpush
    have hkept : fp'.buf = read ++ [b] := by rw [hbuf, h.kept]
    rw [hstatus] at hstatus'
    dsimp only
    cases ht : fp.transport with
    | unknown =>
      obtain ⟨rfl, htotal', hcrlf'⟩ := h.unknown ht
      exact afterPush_unknown hstatus' (htransport.trans ht) hkept (htotal.trans htotal')
        (hcrlf.trans hcrlf')
    | tls =>
      obtain ⟨hhead, hrec⟩ := h.tls ht
      exact afterPush_tls hstatus' (htransport.trans ht) hkept hhead (htotal ▸ hrec)
    | webSocket =>
      obtain ⟨hhead, hscan⟩ := h.webSocket ht
      exact afterPush_webSocket hstatus' (htransport.trans ht) hkept hhead (hcrlf ▸ hscan)

/-- As long as more than one byte is wanted, a byte does not end the packet. -/
theorem Reading.want_feedByte (h : fp.Reading read) (hstatus : fp.status = .needMore) (b : UInt8)
    (hwant : 1 < fp.want) :
    (fp.feedByte b).status = .needMore ∧ fp.want ≤ (fp.feedByte b).want + 1 := by
  have hheader : tlsRecordHeaderLen = 5 := rfl
  rw [want, if_pos hstatus] at hwant ⊢
  cases ht : fp.transport with
  | unknown => simp [ht] at hwant
  | webSocket => simp [ht] at hwant
  | tls =>
    have hrec := (h.tls ht).2
    rw [← h.kept] at hrec
    simp only [ht] at hwant ⊢
    unfold FirstPacket.feedByte
    cases hpush : fp.pushByte b with
    | none =>
      have hfull := pushByte_eq_none hpush
      rw [InRecord, hfull, if_neg (by decide)] at hrec
      omega
    | some fp' =>
      obtain ⟨hbuf, htransport, hstatus', htotal, _⟩ := pushByte_eq_some hpush
      rw [hstatus] at hstatus'
      have hlen : fp'.buf.length = fp.buf.length + 1 := by rw [hbuf, List.length_append]; rfl
      dsimp only
      unfold afterPush
      rw [htransport, ht]
      dsimp only
      by_cases hshort : fp.buf.length < tlsRecordHeaderLen
      · rw [if_pos hshort] at hwant ⊢
        rw [InRecord, if_pos hshort] at hrec
        rw [if_neg (by omega), checkTotal, if_neg (by simp [htotal, hrec]), want, if_pos hstatus',
          htransport, ht]
        dsimp only
        rw [if_pos (by omega)]
        exact ⟨hstatus', by omega⟩
      · rw [if_neg hshort] at hwant ⊢
        rw [InRecord, if_neg hshort] at hrec
        rw [if_neg (by omega), checkTotal, if_neg (by omega), want, if_pos hstatus', htransport, ht]
        dsimp only
        rw [if_neg (by omega)]
        exact ⟨hstatus', by omega⟩

theorem Reading.feedLoop {bs : List UInt8} (h : fp.Reading read) (hstatus : fp.status = .needMore)
    (hbs : bs ≠ []) (hlen : bs.length ≤ fp.want) : (fp.feedLoop bs).Consistent (read ++ bs) := by
  induction bs generalizing fp read with
  | nil => exact absurd rfl hbs
  | cons b bs ih =>
    have hstep := h.feedByte hstatus b
    unfold FirstPacket.feedLoop
    by_cases hnil : bs = []
    · subst hnil
      split
      · exact hstep
      · exact hstep
    · have hpos := List.length_pos_iff.mpr hnil
      rw [List.length_cons] at hlen
      obtain ⟨hmore, hwant⟩ := h.want_feedByte hstatus b (by omega)
      rw [if_pos hmore, List.append_cons]
      exact ih (hstep.reading hmore) hmore hnil (by omega)

/-- Feeding what `want` asked for, or less. -/
theorem Reading.feed {bs : List UInt8} (h : fp.Reading read) (hstatus : fp.status = .needMore)
    (hbs : bs ≠ []) (hlen : bs.length ≤ fp.want) : (fp.feed bs).Consistent (read ++ bs) := by
  rw [FirstPacket.feed, if_pos hstatus, List.take_of_length_le hlen]
  exact h.feedLoop hstatus hbs hlen

/-- A stream of which the reader keeps every byte it reads: one that is no request, or is not
    longer than the buffer, or has a blank line in the part that fits. -/
def Fits (stream : List UInt8) : Prop :=
  stream.head? = some 0x47 → firstPacketMax < stream.length →
    blankLine <:+: stream.take firstPacketMax

/-- When the packet has ended, all bytes read were kept exactly if the stream fits. -/
theorem Ended.kept_iff {stream : List UInt8} (h : fp.Ended read) (hread : read <+: stream)
    (hne : read ≠ []) : fp.buf = read ↔ Fits stream := by
  have hhead : stream.head? = read.head? := by
    obtain ⟨rest, rfl⟩ := hread
    rw [List.head?_append_of_ne_nil _ hne]
  rcases h with ⟨hkept, hblank⟩ | ⟨b, hb, hget, hfull, hno⟩
  · refine ⟨fun _ hs _ => ?_, fun _ => hkept⟩
    rw [hhead] at hs
    have hstarts : read <+: stream.take firstPacketMax := by
      refine List.prefix_take_iff.mpr ⟨hread, ?_⟩
      rw [← hkept]
      exact fp.buf_le
    exact (hblank hs).trans hstarts.isInfix
  · have hlost : fp.buf ≠ read := by
      intro heq
      rw [← heq] at hb
      simpa using congrArg List.length hb
    refine ⟨fun heq => absurd heq hlost, fun hfits => ?_⟩
    obtain ⟨rest, rfl⟩ := hread
    have htake : (read ++ rest).take firstPacketMax = fp.buf := by
      rw [hb, List.append_assoc, List.take_append_of_le_length (by omega),
        List.take_of_length_le (by omega)]
    refine absurd (htake ▸ hfits ?_ ?_) hno
    · rw [hhead, hb, List.head?_append, hget]
      rfl
    · rw [hb]
      simp only [List.length_append, List.length_singleton]
      omega

end FirstPacket

end Cloak
