import Cloak.Client.ClientHandshake

set_option autoImplicit false

/-! # The handshake's reader

`feed` is the loop of a `PieceReader`, so what the handshake comes to depends on the bytes alone. A
whole record is one step of the reader (`feed_record`). -/

namespace Cloak

open Lib

namespace ClientHandshake

/-- What holds of a handshake that reads: a piece is in flight while it is pending. -/
structure Reading (h : ClientHandshake) : Prop where
  header : h.status = .pending → h.state = .readRecordHeader → h.header.length < 5
  body : h.status = .pending → h.state = .readRecordBody → h.bodyLen < h.bodyTotal
  state : h.status = .pending → h.state = .readRecordHeader ∨ h.state = .readRecordBody
  prefix_le : h.sh.length ≤ serverHelloPrefixLen

variable {evp : Evp} {h : ClientHandshake} {bs bs' : List UInt8} {err : HandshakeError}

/-! ## Ending -/

theorem status_fail (h : ClientHandshake) (err : HandshakeError) : (h.fail err).status ≠ .pending := by
  unfold fail
  split
  · assumption
  · simp [releaseReactor]

theorem status_complete (h : ClientHandshake) : h.complete.status ≠ .pending := by
  unfold complete
  split
  · assumption
  · simp [releaseReactor]

theorem sh_fail (h : ClientHandshake) (err : HandshakeError) : (h.fail err).sh = h.sh := by
  unfold fail
  split <;> rfl

theorem sh_complete (h : ClientHandshake) : h.complete.sh = h.sh := by
  unfold complete
  split <;> rfl

/-- A handshake that has ended is in order, whatever else it holds. -/
theorem Reading.of_ended (h : ClientHandshake) (hend : h.status ≠ .pending)
    (hsh : h.sh.length ≤ serverHelloPrefixLen) : h.Reading :=
  ⟨fun hp => absurd hp hend, fun hp => absurd hp hend, fun hp => absurd hp hend, hsh⟩

theorem reading_fail (hsh : h.sh.length ≤ serverHelloPrefixLen) (err : HandshakeError) :
    (h.fail err).Reading :=
  .of_ended _ (status_fail h err) (by rwa [sh_fail])

theorem reading_nextRecord (hsh : h.sh.length ≤ serverHelloPrefixLen) : h.nextRecord.Reading := by
  unfold nextRecord
  split
  · exact .of_ended _ (status_complete h) (by rwa [sh_complete])
  · exact ⟨fun _ _ => Nat.succ_pos 4, fun _ hs => (by cases hs), fun _ => .inl rfl, hsh⟩

theorem reading_recordComplete (hsh : h.sh.length ≤ serverHelloPrefixLen) :
    (h.recordComplete evp).Reading := by
  unfold recordComplete
  split
  · split
    · refine reading_fail ?_ _
      exact hsh
    · exact reading_nextRecord hsh
  · exact reading_nextRecord hsh

theorem reading_headerComplete (hsh : h.sh.length ≤ serverHelloPrefixLen) :
    (h.headerComplete evp).Reading := by
  unfold headerComplete
  split
  · refine reading_fail ?_ _
    exact hsh
  split
  · refine reading_fail ?_ _
    exact hsh
  split
  · refine reading_fail ?_ _
    exact hsh
  split
  · exact reading_recordComplete hsh
  · refine ⟨fun _ hs => (by cases hs), fun _ _ => ?_, fun _ => .inr rfl, hsh⟩
    dsimp only
    omega

theorem length_keepPrefix (hsh : h.sh.length ≤ serverHelloPrefixLen) (bs : List UInt8) :
    (h.keepPrefix bs).length ≤ serverHelloPrefixLen := by
  unfold keepPrefix
  split
  · rw [List.length_append, List.length_take]
    omega
  · exact hsh

/-! ## The pieces -/

theorem feedWant_of_pending (hp : h.status = .pending) : h.feedWant = h.bytesWanted := if_pos hp

/-- The reader wants nothing exactly when the handshake has ended. -/
theorem Reading.feedWant_eq_zero (hr : h.Reading) : h.feedWant = 0 ↔ h.status ≠ .pending := by
  unfold feedWant
  split
  · next hp =>
    rcases hr.state hp with hs | hs
    · have hlt := hr.header hp hs
      refine iff_of_false ?_ (not_not.mpr hp)
      simp only [bytesWanted, hs]
      omega
    · have hlt := hr.body hp hs
      refine iff_of_false ?_ (not_not.mpr hp)
      simp only [bytesWanted, hs]
      omega
  · next hp => exact iff_of_true rfl hp

theorem pending_of_feedWant (hne : h.feedWant ≠ 0) : h.status = .pending := by
  unfold feedWant at hne
  split at hne
  · assumption
  · exact absurd rfl hne

/-- A wanted piece keeps the reader in order. -/
theorem Reading.feedPiece (hr : h.Reading) (hne : bs ≠ []) (hle : bs.length ≤ h.feedWant) :
    (h.feedPiece evp bs).Reading := by
  have hpos := List.length_pos_of_ne_nil hne
  have hp : h.status = .pending := pending_of_feedWant (by omega)
  rw [feedWant_of_pending hp] at hle
  unfold ClientHandshake.feedPiece
  cases hs : h.state with
  | readRecordHeader =>
    dsimp only
    split
    · next hlt => exact ⟨fun _ _ => hlt, fun _ hs' => (by cases hs.symm.trans hs'), fun _ => .inl hs,
        hr.prefix_le⟩
    · exact reading_headerComplete hr.prefix_le
  | readRecordBody =>
    dsimp only
    split
    · exact reading_recordComplete (length_keepPrefix hr.prefix_le bs)
    · next hneq =>
      have hlt := hr.body hp hs
      simp only [bytesWanted, hs] at hle
      simp only [takeBody] at hneq
      refine ⟨fun _ hs' => (by cases hs.symm.trans hs'), fun _ _ => ?_, fun _ => .inr hs,
        length_keepPrefix hr.prefix_le bs⟩
      simp only [takeBody]
      omega
  | _ => simp only [bytesWanted, hs] at hle; omega

/-- A part of a piece leaves the rest of it wanted. -/
theorem feedWant_feedPiece (hlt : bs.length < h.feedWant) :
    (h.feedPiece evp bs).feedWant = h.feedWant - bs.length := by
  have hp : h.status = .pending := pending_of_feedWant (by omega)
  rw [feedWant_of_pending hp] at hlt ⊢
  unfold ClientHandshake.feedPiece
  cases hs : h.state with
  | readRecordHeader =>
    simp only [bytesWanted, hs] at hlt
    have hshort : (h.takeHeader bs).header.length < 5 := by
      simp only [takeHeader, List.length_append]
      omega
    dsimp only
    rw [if_pos hshort, feedWant_of_pending (h := h.takeHeader bs) hp]
    simp only [bytesWanted, takeHeader, hs, List.length_append]
    omega
  | readRecordBody =>
    simp only [bytesWanted, hs] at hlt
    have hshort : (h.takeBody bs).bodyLen ≠ (h.takeBody bs).bodyTotal := by
      simp only [takeBody]
      omega
    dsimp only
    rw [if_neg hshort, feedWant_of_pending (h := h.takeBody bs) hp]
    simp only [bytesWanted, takeBody, hs]
    omega
  | _ => simp only [bytesWanted, hs] at hlt; omega

theorem keepPrefix_keepPrefix (hsh : h.sh.length ≤ serverHelloPrefixLen) (bs bs' : List UInt8) :
    (h.takeBody bs).keepPrefix bs' = h.keepPrefix (bs ++ bs') := by
  by_cases h0 : h.recordIndex = 0
  · have hkeep : ∀ g : ClientHandshake, g.recordIndex = 0 → g.sh.length ≤ serverHelloPrefixLen →
        ∀ cs, g.keepPrefix cs = (g.sh ++ cs).take serverHelloPrefixLen := by
      intro g hg hle cs
      unfold keepPrefix
      split
      · rw [List.take_append, List.take_of_length_le hle]
      · rw [List.take_append_of_le_length (by omega), List.take_of_length_le hle]
    have hfirst : (h.takeBody bs).sh = (h.sh ++ bs).take serverHelloPrefixLen := hkeep h h0 hsh bs
    have hle : (h.takeBody bs).sh.length ≤ serverHelloPrefixLen := length_keepPrefix hsh bs
    rw [hkeep (h.takeBody bs) h0 hle, hkeep h h0 hsh, hfirst, ← List.append_assoc]
    generalize h.sh ++ bs = cs
    rw [List.take_append, List.take_append, List.take_take, min_self, List.length_take]
    congr 2
    omega
  · rw [keepPrefix, if_neg fun hc => h0 hc.1, keepPrefix, if_neg fun hc => h0 hc.1]
    exact if_neg fun hc => h0 hc.1

/-- A piece may come in two parts. -/
theorem Reading.feedPiece_feedPiece (hr : h.Reading) (_ : bs ≠ []) (hne' : bs' ≠ [])
    (hle : bs.length + bs'.length ≤ h.feedWant) :
    (h.feedPiece evp bs).feedPiece evp bs' = h.feedPiece evp (bs ++ bs') := by
  have hpos := List.length_pos_of_ne_nil hne'
  have hp : h.status = .pending := pending_of_feedWant (by omega)
  rw [feedWant_of_pending hp] at hle
  cases hs : h.state with
  | readRecordHeader =>
    simp only [bytesWanted, hs] at hle
    have hshort : (h.takeHeader bs).header.length < 5 := by
      simp only [takeHeader, List.length_append]
      omega
    have hfirst : h.feedPiece evp bs = h.takeHeader bs := by
      rw [ClientHandshake.feedPiece, hs]
      exact if_pos hshort
    have htwice : (h.takeHeader bs).takeHeader bs' = h.takeHeader (bs ++ bs') := by
      simp [takeHeader, Nat.add_assoc]
    have hs' : (h.takeHeader bs).state = .readRecordHeader := hs
    rw [hfirst, ClientHandshake.feedPiece, ClientHandshake.feedPiece, hs', hs, htwice]
  | readRecordBody =>
    simp only [bytesWanted, hs] at hle
    have hshort : (h.takeBody bs).bodyLen ≠ (h.takeBody bs).bodyTotal := by
      simp only [takeBody]
      omega
    have hfirst : h.feedPiece evp bs = h.takeBody bs := by
      rw [ClientHandshake.feedPiece, hs]
      exact if_neg hshort
    have htwice : (h.takeBody bs).takeBody bs' = h.takeBody (bs ++ bs') := by
      rw [takeBody, keepPrefix_keepPrefix hr.prefix_le]
      simp [takeBody, Nat.add_assoc]
    have hs' : (h.takeBody bs).state = .readRecordBody := hs
    rw [hfirst, ClientHandshake.feedPiece, ClientHandshake.feedPiece, hs', hs, htwice]
  | _ => simp only [bytesWanted, hs] at hle; omega

/-- The handshake as a reader. -/
def reader (evp : Evp) : PieceReader UInt8 ClientHandshake where
  want := feedWant
  piece h bs := h.feedPiece evp bs
  Ok := Reading
  piece_ok := Reading.feedPiece
  want_piece _ _ hlt := feedWant_feedPiece hlt
  piece_piece := Reading.feedPiece_feedPiece

theorem feed_eq (evp : Evp) (h : ClientHandshake) (data : List UInt8) :
    h.feed evp data = (reader evp).feed h data := by
  have hloop : ∀ fuel h data, feedFrom evp fuel h data = (reader evp).feedFrom fuel h data := by
    intro fuel
    induction fuel with
    | zero => intro h data; rfl
    | succ fuel ih =>
      intro h data
      cases data with
      | nil => rfl
      | cons b data =>
        rw [feedFrom, PieceReader.feedFrom, ih]
        rfl
  exact hloop _ h data

theorem feed_append (hr : h.Reading) (bs bs' : List UInt8) :
    h.feed evp (bs ++ bs') = (h.feed evp bs).feed evp bs' := by
  rw [feed_eq, feed_eq, feed_eq]
  exact (reader evp).feed_append hr

theorem feed_piece (hne : bs ≠ []) (hle : bs.length ≤ h.feedWant) :
    h.feed evp bs = h.feedPiece evp bs := by
  rw [feed_eq]
  exact (reader evp).feed_piece hne hle

theorem Reading.feed (hr : h.Reading) (evp : Evp) (bs : List UInt8) : (h.feed evp bs).Reading := by
  rw [feed_eq]
  exact (reader evp).feed_ok hr

/-! ## Whole records -/

/-- A header. -/
def recordHeader (typ : UInt8) (len : Nat) : List UInt8 := [typ, 0x03, 0x03] ++ beBytes 2 len

/-- The handshake with a record taken in, before `record_complete`. -/
def withRecord (h : ClientHandshake) (typ : UInt8) (body : List UInt8) : ClientHandshake :=
  { h with
    state := .readRecordBody
    header := recordHeader typ body.length
    bodyLen := body.length
    bodyTotal := body.length
    replyBytes := h.replyBytes + 5 + body.length
    sh := h.keepPrefix body }

section Record

variable {typ : UInt8} {body : List UInt8}

theorem length_recordHeader (typ : UInt8) (len : Nat) : (recordHeader typ len).length = 5 := by
  simp [recordHeader]

theorem recordHeader_ne_nil (typ : UInt8) (len : Nat) : recordHeader typ len ≠ [] := by
  simp [recordHeader]

/-- A handshake at the start of a record wants its header. -/
theorem feedWant_start (hp : h.status = .pending) (hs : h.state = .readRecordHeader)
    (hheader : h.header = []) : h.feedWant = 5 := by
  rw [feedWant_of_pending hp]
  simp [bytesWanted, hs, hheader]

/-- A header whose length is in bounds and which, of the first record, has the right type, is
    followed by its body. -/
theorem feed_recordHeader (hp : h.status = .pending) (hs : h.state = .readRecordHeader)
    (hheader : h.header = []) (hbody : body ≠ []) (hmax : body.length ≤ handshakeMaxRecordBody)
    (hfirst : h.recordIndex = 0 → typ = 0x16 ∧ serverHelloPrefixLen ≤ body.length)
    (htotal : h.replyBytes + 5 + body.length ≤ handshakeMaxReplyBytes) :
    h.feed evp (recordHeader typ body.length) =
      { h with
        state := .readRecordBody
        header := recordHeader typ body.length
        bodyLen := 0
        bodyTotal := body.length
        replyBytes := h.replyBytes + 5 } := by
  have hpos := List.length_pos_of_ne_nil hbody
  have hheadlen := length_recordHeader typ body.length
  have hlen : beNat (slice (recordHeader typ body.length) 3 2) = body.length := by
    have hslice : slice (recordHeader typ body.length) 3 2 = beBytes 2 body.length := by
      rw [slice, recordHeader, List.drop_left' (by simp), List.take_of_length_le (by simp)]
    rw [hslice, beNat_beBytes]
    exact lt_of_le_of_lt hmax (by decide)
  have hheader' : (h.takeHeader (recordHeader typ body.length)).header =
      recordHeader typ body.length := by rw [takeHeader, hheader, List.nil_append]
  have hbytes : (h.takeHeader (recordHeader typ body.length)).replyBytes = h.replyBytes + 5 := by
    simp [takeHeader, hheadlen]
  rw [feed_piece (recordHeader_ne_nil _ _) (by rw [feedWant_start hp hs hheader, hheadlen]), feedPiece,
    hs]
  dsimp only
  rw [if_neg (by simp [takeHeader, hheader, hheadlen]), headerComplete, hheader', hlen,
    if_neg (by omega), if_neg ?_, if_neg (by rw [hbytes]; omega), if_neg (by omega), takeHeader, hheader,
    hheadlen, List.nil_append]
  rintro ⟨h0, htyp | hshort⟩
  · exact htyp (hfirst h0).1
  · have := (hfirst h0).2
    omega

/-- A record with such a header is taken in whole, and not a byte beyond it. -/
theorem feed_record (evp : Evp) (typ : UInt8) (hr : h.Reading) (hp : h.status = .pending)
    (hs : h.state = .readRecordHeader) (hheader : h.header = []) (hbody : body ≠ [])
    (hmax : body.length ≤ handshakeMaxRecordBody)
    (hfirst : h.recordIndex = 0 → typ = 0x16 ∧ serverHelloPrefixLen ≤ body.length)
    (htotal : h.replyBytes + 5 + body.length ≤ handshakeMaxReplyBytes) :
    h.feed evp (recordHeader typ body.length ++ body) =
        (h.withRecord typ body).recordComplete evp ∧
      (reader evp).Within h (recordHeader typ body.length ++ body) := by
  have hhead : h.feed evp _ = _ := feed_recordHeader hp hs hheader hbody hmax hfirst htotal
  have hwant : (h.feed evp (recordHeader typ body.length)).feedWant = body.length := by
    rw [hhead, feedWant_of_pending (by exact hp)]
    simp [bytesWanted]
  constructor
  · rw [feed_append hr, feed_piece hbody hwant.ge, hhead, feedPiece]
    dsimp only
    rw [if_pos (by simp [takeBody]), takeBody, withRecord]
    simp [keepPrefix]
  · refine (PieceReader.Within.of_le hr ?_).append hr ?_
    · exact (length_recordHeader typ body.length).trans_le (feedWant_start hp hs hheader).ge
    · rw [← feed_eq]
      exact hwant.ge

end Record

end ClientHandshake

end Cloak
