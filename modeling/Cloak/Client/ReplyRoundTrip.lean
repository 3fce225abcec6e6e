import Cloak.Client.HandshakeReader
import Cloak.Lib.Run
import Cloak.Server.ServerAuth

set_option autoImplicit false

/-! # The reply's round trip

The reply `cloak_server_auth_compose_reply` writes, read by the handshake of `client_transport.c`. In
a run nothing disturbs, the handshake is what its reader makes of the bytes read so far
(`Follows`), and the reader is not given a byte it did not want. -/

namespace Cloak

open Lib

namespace ClientHandshake

variable {evp : Evp} {h h₀ h₁ h₂ : ClientHandshake}

/-! ## What reading and writing leave alone -/

/-- From `h₀` to `h` nothing was reported, and the registration is held while pending. -/
structure Framed (h₀ h : ClientHandshake) : Prop where
  notified : h.notified = h₀.notified
  reports : h.reports = h₀.reports
  pending : h.status = .pending → h₀.status = .pending
  registered : h.status = .pending → h.fdRegistered = h₀.fdRegistered

theorem Framed.refl (h : ClientHandshake) : Framed h h := ⟨rfl, rfl, id, fun _ => rfl⟩

theorem Framed.after (h₂₁ : Framed h₁ h₂) (h₁₀ : Framed h₀ h₁) : Framed h₀ h₂ where
  notified := h₂₁.notified.trans h₁₀.notified
  reports := h₂₁.reports.trans h₁₀.reports
  pending hp := h₁₀.pending (h₂₁.pending hp)
  registered hp := (h₂₁.registered hp).trans (h₁₀.registered (h₂₁.pending hp))

theorem framed_fail (h : ClientHandshake) (err : HandshakeError) : Framed h (h.fail err) := by
  refine ⟨?_, ?_, fun hp => absurd hp (status_fail h err), fun hp => absurd hp (status_fail h err)⟩
  all_goals
    unfold fail
    split <;> rfl

theorem framed_complete (h : ClientHandshake) : Framed h h.complete := by
  refine ⟨?_, ?_, fun hp => absurd hp (status_complete h), fun hp => absurd hp (status_complete h)⟩
  all_goals
    unfold complete
    split <;> rfl

theorem framed_nextRecord (h : ClientHandshake) : Framed h h.nextRecord := by
  unfold nextRecord
  split
  · exact framed_complete h
  · exact ⟨rfl, rfl, id, fun _ => rfl⟩

theorem framed_recordComplete (h : ClientHandshake) : Framed h (h.recordComplete evp) := by
  unfold recordComplete
  split
  · split
    · exact (framed_fail _ _).after ⟨rfl, rfl, id, fun _ => rfl⟩
    · exact (framed_nextRecord _).after ⟨rfl, rfl, id, fun _ => rfl⟩
  · exact (framed_nextRecord _).after ⟨rfl, rfl, id, fun _ => rfl⟩

theorem framed_headerComplete (h : ClientHandshake) : Framed h (h.headerComplete evp) := by
  unfold headerComplete
  split
  · exact (framed_fail _ _).after ⟨rfl, rfl, id, fun _ => rfl⟩
  split
  · exact (framed_fail _ _).after ⟨rfl, rfl, id, fun _ => rfl⟩
  split
  · exact (framed_fail _ _).after ⟨rfl, rfl, id, fun _ => rfl⟩
  split
  · exact (framed_recordComplete _).after ⟨rfl, rfl, id, fun _ => rfl⟩
  · exact ⟨rfl, rfl, id, fun _ => rfl⟩

theorem framed_feedPiece (h : ClientHandshake) (bs : List UInt8) :
    Framed h (h.feedPiece evp bs) := by
  unfold feedPiece
  split
  · split
    · exact ⟨rfl, rfl, id, fun _ => rfl⟩
    · exact (framed_headerComplete _).after ⟨rfl, rfl, id, fun _ => rfl⟩
  · split
    · exact (framed_recordComplete _).after ⟨rfl, rfl, id, fun _ => rfl⟩
    · exact ⟨rfl, rfl, id, fun _ => rfl⟩
  · exact .refl h

theorem framed_feed (evp : Evp) (h : ClientHandshake) (bs : List UInt8) : Framed h (h.feed evp bs) := by
  rw [feed_eq]
  exact PieceReader.feed_induction (P := Framed h)
    (fun hf _ _ => (framed_feedPiece _ _).after hf) (.refl h)

theorem framed_setInterest (h : ClientHandshake) (want : RelayInterest) (modOk : Bool) :
    Framed h (h.setInterest want modOk) := by
  unfold setInterest
  split
  · exact .refl h
  split
  · exact ⟨rfl, rfl, id, fun _ => rfl⟩
  · exact framed_fail h _

theorem framed_doWrite (modOk : Bool) (answers : List SendAnswer) (h : ClientHandshake) :
    Framed h (h.doWrite modOk answers) := by
  have hturn : ∀ h : ClientHandshake,
      Framed h ({ h with state := .readRecordHeader }.setInterest ⟨true, false⟩ modOk) :=
    fun h => (framed_setInterest _ _ _).after ⟨rfl, rfl, id, fun _ => rfl⟩
  induction answers generalizing h with
  | nil =>
    unfold doWrite
    split
    · exact .refl h
    · exact hturn h
  | cons answer answers ih =>
    unfold doWrite
    split
    · cases answer with
      | took n =>
        dsimp only
        split
        · exact .refl h
        · exact (ih _).after ⟨rfl, rfl, id, fun _ => rfl⟩
      | intr => exact ih h
      | again => exact .refl h
      | failed => exact framed_fail h _
    · exact hturn h

/-! ## The start of reading -/

/-- A started handshake. -/
def opening (sharedSecret hello : List UInt8) : ClientHandshake :=
  ((init sharedSecret hello).start true true).1

/-- The handshake when the whole ClientHello is written. -/
def awaiting (sharedSecret hello : List UInt8) : ClientHandshake :=
  { opening sharedSecret hello with
    state := .readRecordHeader
    helloSent := hello.length
    fdInterest := ⟨true, false⟩ }

theorem reading_awaiting (sharedSecret hello : List UInt8) : (awaiting sharedSecret hello).Reading :=
  ⟨fun _ _ => Nat.succ_pos 4, fun _ hs => (by cases hs), fun _ => .inl rfl, Nat.zero_le _⟩

theorem finish_of_pending (hp : h.status = .pending) : h.finish = h := if_pos (.inl hp)

@[simp] theorem status_finish (h : ClientHandshake) : h.finish.status = h.status := by
  unfold finish
  split <;> rfl

@[simp] theorem sessionKey_finish (h : ClientHandshake) : h.finish.sessionKey = h.sessionKey := by
  unfold finish
  split <;> rfl

theorem reports_finish (hend : h.status ≠ .pending) (hn : h.notified = false) :
    h.finish.reports = h.reports ++ [h.status] := by
  rw [finish, if_neg (by simp [hend, hn])]

/-- Writing undisturbed comes to where the reader starts, or is not over. -/
theorem doWrite_undisturbed (sharedSecret : List UInt8) {hello : List UInt8} {answers : List SendAnswer} {n : Nat}
    (hanswers : .failed ∉ answers) (hn : n ≤ hello.length) :
    ({ opening sharedSecret hello with helloSent := n }.doWrite true answers =
      awaiting sharedSecret hello) ∨
    ∃ m ≤ hello.length, { opening sharedSecret hello with helloSent := n }.doWrite true answers =
      { opening sharedSecret hello with helloSent := m } := by
  have hhello : (opening sharedSecret hello).hello = hello := rfl
  induction answers generalizing n with
  | nil =>
    unfold doWrite
    split
    · exact .inr ⟨n, hn, rfl⟩
    · next hlt =>
      obtain rfl : n = hello.length := by
        rw [hhello] at hlt
        exact Nat.le_antisymm hn (Nat.le_of_not_lt hlt)
      exact .inl rfl
  | cons answer answers ih =>
    have hanswers' : .failed ∉ answers := fun hm => hanswers (List.mem_cons_of_mem _ hm)
    unfold doWrite
    split
    · cases answer with
      | took k =>
        dsimp only
        split
        · exact .inr ⟨n, hn, rfl⟩
        · refine ih hanswers' ?_
          rw [hhello]
          omega
      | intr => exact ih hanswers' hn
      | again => exact .inr ⟨n, hn, rfl⟩
      | failed => exact absurd List.mem_cons_self hanswers
    · next hlt =>
      obtain rfl : n = hello.length := by
        rw [hhello] at hlt
        exact Nat.le_antisymm hn (Nat.le_of_not_lt hlt)
      exact .inl rfl

/-- A kernel that takes the whole ClientHello at once lets the reading start. -/
theorem doWrite_took (sharedSecret hello : List UInt8) {n : Nat} (hn : n ≤ hello.length) :
    { opening sharedSecret hello with helloSent := n }.doWrite true [.took hello.length] =
      awaiting sharedSecret hello := by
  have hhello : (opening sharedSecret hello).hello = hello := rfl
  rcases Nat.lt_or_ge n hello.length with hlt | hge
  · have hsum : n + min hello.length (hello.length - n) = hello.length := by omega
    simp only [doWrite, hhello]
    rw [if_pos hlt, if_neg (by omega), hsum, if_neg (lt_irrefl _)]
    rfl
  · obtain rfl : n = hello.length := Nat.le_antisymm hn hge
    simp only [doWrite, hhello]
    rw [if_neg (lt_irrefl _)]
    rfl

end ClientHandshake

/-! ## The reply -/

/-- The values a reply is composed of. -/
structure ReplyFields where
  sessionKey : List UInt8
  replyNonce : List UInt8
  clientSessionId : List UInt8
  pad4 : List UInt8
  fakeCert : List UInt8
  sessionKey_length : sessionKey.length = aeadKeyLen
  replyNonce_length : replyNonce.length = aeadNonceLen
  clientSessionId_length : clientSessionId.length = 32
  pad4_length : pad4.length = 4
  fakeCert_length : fakeCert.length ∈ serverAuthCertLens

namespace ReplyFields

open ClientHandshake

/-- `cloak_server_auth_compose_reply`, into a buffer of the documented size. -/
def composed (f : ReplyFields) (evp : Evp) (sharedSecret : List UInt8) : Option (List UInt8) :=
  serverAuthComposeReply evp sharedSecret f.sessionKey f.replyNonce f.clientSessionId f.pad4
    f.fakeCert serverAuthReplyMaxBytes

/-- The bytes between the two halves of the sealed key. -/
def betweenHalves (f : ReplyFields) : List UInt8 :=
  [0x20] ++ f.clientSessionId ++ [0x13, 0x02, 0x00] ++ beBytes 2 0x002e ++ beBytes 2 0x0033
    ++ beBytes 2 0x0024 ++ beBytes 2 0x001d ++ beBytes 2 0x0020

/-- The body of the first record. -/
def serverHello (f : ReplyFields) (encrypted : List UInt8) : List UInt8 :=
  [0x02, 0x00, 0x00, 0x76, 0x03, 0x03] ++ (f.replyNonce ++ (encrypted.take 20 ++
    (f.betweenHalves ++ (encrypted.drop 20 ++
      (f.pad4 ++ beBytes 2 0x002b ++ beBytes 2 0x0002 ++ [0x03, 0x04])))))

/-- The three records. -/
def records (f : ReplyFields) (encrypted : List UInt8) : List UInt8 :=
  (recordHeader 0x16 (f.serverHello encrypted).length ++ f.serverHello encrypted) ++
    ((recordHeader 0x14 [(0x01 : UInt8)].length ++ [0x01]) ++
      (recordHeader 0x17 f.fakeCert.length ++ f.fakeCert))

variable {evp : Evp} {f : ReplyFields} {sharedSecret encrypted : List UInt8}

theorem length_betweenHalves (f : ReplyFields) : f.betweenHalves.length = 46 := by
  simp [betweenHalves, f.clientSessionId_length]

theorem length_serverHello (f : ReplyFields) (hlen : encrypted.length = 48) :
    (f.serverHello encrypted).length = 122 := by
  have hnonce : aeadNonceLen = 12 := rfl
  simp [serverHello, f.replyNonce_length, f.length_betweenHalves, f.pad4_length, hlen, hnonce]

theorem fakeCert_bounds (f : ReplyFields) : 0 < f.fakeCert.length ∧ f.fakeCert.length ≤ 68 := by
  have hmem := f.fakeCert_length
  simp only [serverAuthCertLens, List.mem_cons, List.not_mem_nil, or_false] at hmem
  omega

/-- The composition succeeds, and the key is sealed in what it writes. -/
theorem composed_some (hevp : evp.Lawful) (f : ReplyFields) (sharedSecret : List UInt8) :
    ∃ encrypted, encrypted.length = 48 ∧
      aeadOpen evp .aes256Gcm sharedSecret f.replyNonce [] encrypted = some f.sessionKey ∧
      f.composed evp sharedSecret = some (f.records encrypted) := by
  obtain ⟨encrypted, hseal, hlen, hopen⟩ := hevp.aeadSeal_some .aes256Gcm sharedSecret f.replyNonce
    [] f.sessionKey
  have hlen' : encrypted.length = 48 := by
    rw [hlen, f.sessionKey_length]
    rfl
  refine ⟨encrypted, hlen', hopen, ?_⟩
  have hbounds := f.fakeCert_bounds
  have hfit : 5 + 122 + (5 + 1) + (5 + f.fakeCert.length) ≤ serverAuthReplyMaxBytes := by
    rw [serverAuthReplyMaxBytes]
    omega
  rw [composed, serverAuthComposeReply, records, f.length_serverHello hlen']
  simp only [hseal, hlen', hfit, f.fakeCert_length, guard_true, Option.bind_eq_bind, Option.bind_some,
    Option.pure_def, recordHeader, serverHello, betweenHalves, List.append_assoc,
    List.length_singleton]

end ReplyFields

namespace ClientHandshake

variable {evp : Evp} {h : ClientHandshake} {f : ReplyFields} {sharedSecret encrypted : List UInt8}

/-- The key is recovered from the prefix of the ServerHello. -/
theorem recoverSessionKey_serverHello {f : ReplyFields} (hlen : encrypted.length = 48)
    (hopen : aeadOpen evp .aes256Gcm h.sharedSecret f.replyNonce [] encrypted = some f.sessionKey)
    (hsh : h.sh = (f.serverHello encrypted).take serverHelloPrefixLen) :
    recoverSessionKey evp h = some f.sessionKey := by
  have hnonce : slice h.sh 6 aeadNonceLen = f.replyNonce := by
    rw [hsh, slice_take _ _ _ _ (by decide), ReplyFields.serverHello]
    exact slice_append_middle _ rfl f.replyNonce_length
  have hfirst : slice h.sh 18 20 = encrypted.take 20 := by
    rw [hsh, slice_take _ _ _ _ (by decide), ReplyFields.serverHello, ← List.append_assoc]
    refine slice_append_middle _ ?_ (by simp [hlen])
    rw [List.length_append, f.replyNonce_length]
    rfl
  have hsecond : slice h.sh 84 28 = encrypted.drop 20 := by
    rw [hsh, slice_take _ _ _ _ (by decide), ReplyFields.serverHello, ← List.append_assoc,
      ← List.append_assoc, ← List.append_assoc]
    refine slice_append_middle _ ?_ (by simp [hlen])
    simp only [List.length_append, f.replyNonce_length, f.length_betweenHalves, List.length_take, hlen]
    rfl
  have hlong : serverHelloPrefixLen ≤ h.sh.length := by
    rw [hsh, List.length_take, f.length_serverHello hlen]
    decide
  rw [recoverSessionKey, hnonce, hfirst, hsecond, List.take_append_drop, hopen]
  simp [hlong, f.sessionKey_length]

/-- `i` records have been read, the key is known, and the next record is awaited. -/
structure Awaits (h : ClientHandshake) (i n : Nat) (key : List UInt8) : Prop where
  reading : h.Reading
  status : h.status = .pending
  state : h.state = .readRecordHeader
  header : h.header = []
  recordIndex : h.recordIndex = i
  replyBytes : h.replyBytes = n
  sessionKey : h.sessionKey = key

/-- The first record gives the key. -/
theorem awaits_serverHello (hello : List UInt8) (hlen : encrypted.length = 48)
    (hopen : aeadOpen evp .aes256Gcm sharedSecret f.replyNonce [] encrypted = some f.sessionKey) :
    ((awaiting sharedSecret hello).feed evp (recordHeader 0x16 (f.serverHello encrypted).length ++
        f.serverHello encrypted)).Awaits 1 127 f.sessionKey ∧
      (reader evp).Within (awaiting sharedSecret hello)
        (recordHeader 0x16 (f.serverHello encrypted).length ++ f.serverHello encrypted) := by
  have hlen' := f.length_serverHello hlen
  have hr := reading_awaiting sharedSecret hello
  have hfeed := hr.feed evp (recordHeader 0x16 (f.serverHello encrypted).length ++
    f.serverHello encrypted)
  have hindex : ((awaiting sharedSecret hello).withRecord 0x16 (f.serverHello encrypted)).recordIndex
      = 0 := rfl
  have htotal : 0 + 5 + (f.serverHello encrypted).length ≤ handshakeMaxReplyBytes := by
    rw [hlen']
    decide
  have hkey : recoverSessionKey evp ((awaiting sharedSecret hello).withRecord 0x16
      (f.serverHello encrypted)) = some f.sessionKey := recoverSessionKey_serverHello hlen hopen rfl
  obtain ⟨hend, hwithin⟩ := feed_record evp 0x16 hr rfl rfl rfl
    (List.ne_nil_of_length_pos (by omega)) (by rw [hlen']; decide)
    (fun _ => ⟨rfl, by rw [hlen']; decide⟩) htotal
  refine ⟨?_, hwithin⟩
  rw [recordComplete, if_pos hindex, hkey] at hend
  rw [hend] at hfeed ⊢
  refine ⟨hfeed, rfl, rfl, rfl, rfl, ?_, rfl⟩
  show 0 + 5 + (f.serverHello encrypted).length = 127
  rw [hlen']

/-- A later record is passed over. -/
theorem Awaits.feed {body key : List UInt8} {i n : Nat} (ha : h.Awaits (i + 1) n key) (evp : Evp)
    (typ : UInt8)
    (hbody : body ≠ []) (hmax : body.length ≤ handshakeMaxRecordBody)
    (htotal : n + 5 + body.length ≤ handshakeMaxReplyBytes) :
    h.feed evp (recordHeader typ body.length ++ body) =
        { h.withRecord typ body with recordIndex := i + 2 }.nextRecord ∧
      (reader evp).Within h (recordHeader typ body.length ++ body) := by
  obtain ⟨hend, hwithin⟩ := feed_record evp typ ha.reading ha.status ha.state
    ha.header hbody hmax (fun h0 => by cases ha.recordIndex.symm.trans h0)
    (by rw [ha.replyBytes]; exact htotal)
  have hi : (h.withRecord typ body).recordIndex = i + 1 := ha.recordIndex
  rw [recordComplete, if_neg (by omega), hi] at hend
  exact ⟨hend, hwithin⟩

/-- Behind the last record the handshake is done. -/
theorem nextRecord_last (hi : h.recordIndex = handshakeReplyRecords) (hp : h.status = .pending) :
    h.nextRecord.status = .done ∧ h.nextRecord.sessionKey = h.sessionKey := by
  rw [nextRecord, if_pos hi, complete, if_neg (not_not.mpr hp)]
  exact ⟨rfl, rfl⟩

/-- The whole reply ends the handshake, with the key, and no part of it does. -/
theorem feed_records (hello : List UInt8) (hlen : encrypted.length = 48)
    (hopen : aeadOpen evp .aes256Gcm sharedSecret f.replyNonce [] encrypted = some f.sessionKey) :
    ((awaiting sharedSecret hello).feed evp (f.records encrypted)).status = .done ∧
      ((awaiting sharedSecret hello).feed evp (f.records encrypted)).sessionKey = f.sessionKey ∧
      (reader evp).Within (awaiting sharedSecret hello) (f.records encrypted) := by
  obtain ⟨hfirst, hwithin₁⟩ := awaits_serverHello hello hlen hopen
  have hr := reading_awaiting sharedSecret hello
  have htrans := fun ys => @PieceReader.Within.trans _ _ _ _ _ ys hr hwithin₁
  simp only [← feed_eq] at htrans
  rw [ReplyFields.records, feed_append hr]
  generalize (awaiting sharedSecret hello).feed evp (recordHeader 0x16
    (f.serverHello encrypted).length ++ f.serverHello encrypted) = h₁ at hfirst htrans ⊢
  obtain ⟨hend₂, hwithin₂⟩ := hfirst.feed evp 0x14 (List.cons_ne_nil (0x01 : UInt8) [])
    (by decide) (by decide)
  have hsecond : (h₁.feed evp (recordHeader 0x14 [(0x01 : UInt8)].length ++ [0x01])).Awaits 2 133
      f.sessionKey := by
    have hfeed := hfirst.reading.feed evp (recordHeader 0x14 [(0x01 : UInt8)].length ++ [0x01])
    rw [hend₂] at hfeed ⊢
    refine ⟨hfeed, hfirst.status, rfl, rfl, rfl, ?_, hfirst.sessionKey⟩
    show h₁.replyBytes + 5 + 1 = 133
    rw [hfirst.replyBytes]
  have htrans₂ := fun ys => @PieceReader.Within.trans _ _ _ _ _ ys hfirst.reading hwithin₂
  simp only [← feed_eq] at htrans₂
  rw [feed_append hfirst.reading]
  generalize h₁.feed evp (recordHeader 0x14 [(0x01 : UInt8)].length ++ [0x01]) = h₂
    at hsecond htrans₂ ⊢
  have hcert := f.fakeCert_bounds
  obtain ⟨hend₃, hwithin₃⟩ := hsecond.feed evp 0x17 (List.ne_nil_of_length_pos hcert.1)
    (hcert.2.trans (by decide))
    (by rw [handshakeMaxReplyBytes, handshakeMaxRecordBody, handshakeReplyRecords]; omega)
  obtain ⟨hdone, hkey⟩ := nextRecord_last (h := { h₂.withRecord 0x17 f.fakeCert with recordIndex := 3 })
    rfl hsecond.status
  rw [hend₃]
  exact ⟨hdone, hkey.trans hsecond.sessionKey, htrans _ (htrans₂ _ hwithin₃)⟩

end ClientHandshake

/-- Nothing the reactor or the kernel reports is an error, and the handshake is left to itself. -/
def HandshakeEvent.Undisturbed : HandshakeEvent → Prop
  | .ready sends modOk recvs => .failed ∉ sends ∧ modOk = true ∧ .failed ∉ recvs
  | .deadline => False
  | .destroy => False

namespace HandshakeConn

open ClientHandshake

variable {evp : Evp} {c : HandshakeConn} {sharedSecret hello total : List UInt8}

/-! ## Undisturbed runs -/

/-- Where an undisturbed handshake is, inside an event. -/
inductive Phase (evp : Evp) (sharedSecret hello : List UInt8) (c : HandshakeConn) : Prop where
  | sending (n : Nat) (hn : n ≤ hello.length) (htaken : c.taken = [])
      (hhs : c.hs = { opening sharedSecret hello with helloSent := n })
  | reading (hhs : c.hs = (awaiting sharedSecret hello).feed evp c.taken)
  | cut (hincoming : c.incoming = [])
      (hp : ((awaiting sharedSecret hello).feed evp c.taken).status = .pending)
      (hhs : c.hs = ((awaiting sharedSecret hello).feed evp c.taken).fail .eof)

/-- The handshake is what its reader makes of what was read, and no more was read than wanted. -/
structure Follows (evp : Evp) (sharedSecret hello total : List UInt8) (c : HandshakeConn) :
    Prop where
  split : c.taken ++ c.incoming = total
  within : (reader evp).Within (awaiting sharedSecret hello) c.taken
  phase : Phase evp sharedSecret hello c

/-- What one `recv` gives is the front of what comes, and not more than wanted. -/
theorem received_spec (c : HandshakeConn) (n : Nat) :
    c.received n <+: c.incoming ∧ (c.received n).length ≤ c.hs.bytesWanted := by
  refine ⟨List.take_prefix _ _, ?_⟩
  rw [received, List.length_take]
  omega

theorem received_eq_nil {n : Nat} (hwant : c.hs.bytesWanted ≠ 0) :
    c.received n = [] ↔ c.incoming = [] := by
  rw [received, List.take_eq_nil_iff]
  constructor
  · rintro (h | h)
    · omega
    · exact h
  · exact .inr

theorem Follows.feedBytes {n : Nat} (hf : Follows evp sharedSecret hello total c)
    (hp : c.hs.status = .pending) (hhs : c.hs = (awaiting sharedSecret hello).feed evp c.taken) :
    Follows evp sharedSecret hello total (c.feedBytes evp (c.received n)) := by
  obtain ⟨hpre, hle⟩ := received_spec c n
  have hr := reading_awaiting sharedSecret hello
  refine ⟨?_, ?_, .reading ?_⟩
  · obtain ⟨rest, hrest⟩ := hpre
    have hdrop : c.incoming.drop (c.received n).length = rest := by rw [← hrest, List.drop_left]
    simp only [HandshakeConn.feedBytes]
    rw [hdrop, List.append_assoc, hrest]
    exact hf.split
  · refine hf.within.append hr ?_
    rw [← feed_eq, ← hhs]
    exact hle.trans_eq (feedWant_of_pending hp).symm
  · simp only [HandshakeConn.feedBytes]
    rw [feed_append hr, ← hhs]

/-- A handshake that wants bytes is reading. -/
theorem Follows.reads (hf : Follows evp sharedSecret hello total c)
    (hp : c.hs.status = .pending) (hwant : c.hs.bytesWanted ≠ 0) :
    c.hs = (awaiting sharedSecret hello).feed evp c.taken := by
  cases hf.phase with
  | sending n hn htaken hhs =>
    rw [hhs] at hwant
    exact absurd rfl hwant
  | reading hhs => exact hhs
  | cut hincoming hp' hhs =>
    rw [hhs] at hp
    exact absurd hp (status_fail _ _)

theorem Follows.doRead {recvs : List RecvAnswer} (hf : Follows evp sharedSecret hello total c)
    (hrecvs : .failed ∉ recvs) : Follows evp sharedSecret hello total (c.doRead evp recvs) := by
  induction recvs generalizing c with
  | nil => exact hf
  | cons answer recvs ih =>
    have hrecvs' : .failed ∉ recvs := fun hm => hrecvs (List.mem_cons_of_mem _ hm)
    unfold HandshakeConn.doRead
    split
    · next hcond =>
      have hhs := hf.reads hcond.1 hcond.2
      cases answer with
      | data n =>
        dsimp only
        split
        · next hnil =>
          refine ⟨hf.split, hf.within, .cut ((received_eq_nil hcond.2).mp hnil) ?_ ?_⟩
          · exact hhs ▸ hcond.1
          · rw [hhs]
        · exact ih (hf.feedBytes hcond.1 hhs) hrecvs'
      | intr => exact ih hf hrecvs'
      | again => exact hf
      | failed => exact absurd List.mem_cons_self hrecvs
    · exact hf

theorem Follows.readHalf {recvs : List RecvAnswer} (hf : Follows evp sharedSecret hello total c)
    (hrecvs : .failed ∉ recvs) : Follows evp sharedSecret hello total (c.readHalf evp recvs) := by
  unfold HandshakeConn.readHalf
  split
  · exact hf.doRead hrecvs
  · exact hf

theorem Follows.writeHalf {sends : List SendAnswer} (hf : Follows evp sharedSecret hello total c)
    (hp : c.hs.status = .pending) (hsends : .failed ∉ sends) :
    Follows evp sharedSecret hello total (c.writeHalf sends true) := by
  unfold HandshakeConn.writeHalf
  split
  · next hs =>
    refine ⟨hf.split, hf.within, ?_⟩
    cases hf.phase with
    | sending n hn htaken hhs =>
      rcases doWrite_undisturbed sharedSecret hsends hn with hdone | ⟨m, hm, hmore⟩
      · refine .reading ?_
        dsimp only
        rw [hhs, hdone, htaken]
        rfl
      · refine .sending m hm htaken ?_
        dsimp only
        rw [hhs, hmore]
    | reading hhs =>
      -- a reader that is pending is in a header or a body
      have hr := (reading_awaiting sharedSecret hello).feed evp c.taken
      rw [← hhs] at hr
      rcases hr.state hp with hs' | hs' <;> cases hs.symm.trans hs'
    | cut hincoming hp' hhs =>
      rw [hhs] at hp
      exact absurd hp (status_fail _ _)
  · exact hf

/-- Between two events the last statement of the entry point has run. -/
def Settles (evp : Evp) (sharedSecret hello total : List UInt8) (c : HandshakeConn) : Prop :=
  ∃ c', Follows evp sharedSecret hello total c' ∧ c = c'.finish

theorem finish_of_pending {c : HandshakeConn} (hp : c.hs.status = .pending) : c.finish = c := by
  rw [HandshakeConn.finish, ClientHandshake.finish_of_pending hp]

theorem Settles.step {e : HandshakeEvent} (hs : Settles evp sharedSecret hello total c)
    (he : e.Undisturbed) : Settles evp sharedSecret hello total (c.step evp e) := by
  cases e with
  | ready sends modOk recvs =>
    obtain ⟨hsends, rfl, hrecvs⟩ := he
    obtain ⟨c', hf, rfl⟩ := hs
    rw [HandshakeConn.step]
    split
    · unfold onEvent
      split
      · next hp =>
        have hp' : c'.hs.status = .pending := (status_finish _).symm.trans hp
        rw [finish_of_pending hp']
        exact ⟨_, (hf.writeHalf hp' hsends).readHalf hrecvs, rfl⟩
      · exact ⟨c', hf, rfl⟩
    · exact ⟨c', hf, rfl⟩
  | deadline => exact he.elim
  | destroy => exact he.elim

theorem settles_opened (evp : Evp) (sharedSecret hello total : List UInt8) :
    Settles evp sharedSecret hello total (opened sharedSecret hello total) :=
  ⟨_, ⟨rfl, .nil, .sending 0 (Nat.zero_le _) rfl rfl⟩, (finish_of_pending rfl).symm⟩

/-- What holds along every undisturbed run. -/
theorem settles_run (evp : Evp) (sharedSecret hello total : List UInt8) {es : List HandshakeEvent}
    (hes : ∀ e ∈ es, e.Undisturbed) :
    Settles evp sharedSecret hello total
      (run (step evp) (opened sharedSecret hello total) es) := by
  induction es using List.reverseRecOn with
  | nil => exact settles_opened evp sharedSecret hello total
  | append_singleton es e ih =>
    rw [run_concat]
    exact (ih fun e he => hes e (List.mem_append_left _ he)).step
      (hes e (List.mem_append_right _ List.mem_cons_self))

/-! ## Reports -/

/-- The handshake has reported nothing, or the outcome it stands at. -/
structure Reported (h : ClientHandshake) : Prop where
  unnotified : h.notified = false → h.reports = []
  reports : h.reports = [] ∨ h.status ≠ .pending ∧ h.reports = [h.status]

theorem Reported.finish {h h₀ : ClientHandshake} (hr : Reported h₀) (hp : h₀.status = .pending)
    (hf : Framed h₀ h) : Reported h.finish := by
  have hnone : h.reports = [] := by
    rw [hf.reports]
    exact hr.reports.resolve_right fun hc => hc.1 hp
  unfold ClientHandshake.finish
  split
  · exact ⟨fun _ => hnone, .inl hnone⟩
  · next hend =>
    refine ⟨fun hn => (by cases hn), .inr ⟨fun hp' => hend (.inl hp'), ?_⟩⟩
    dsimp only
    rw [hnone, List.nil_append]

theorem framed_doRead (answers : List RecvAnswer) (c : HandshakeConn) :
    Framed c.hs (c.doRead evp answers).hs := by
  induction answers generalizing c with
  | nil => exact .refl _
  | cons answer answers ih =>
    unfold HandshakeConn.doRead
    split
    · cases answer with
      | data n =>
        dsimp only
        split
        · exact framed_fail _ _
        · exact (ih _).after (framed_feed _ _ _)
      | intr => exact ih c
      | again => exact .refl _
      | failed => exact framed_fail _ _
    · exact .refl _

theorem framed_writeHalf (sends : List SendAnswer) (modOk : Bool) (c : HandshakeConn) :
    Framed c.hs (c.writeHalf sends modOk).hs := by
  unfold HandshakeConn.writeHalf
  split
  · exact framed_doWrite _ _ _
  · exact .refl _

theorem framed_readHalf (recvs : List RecvAnswer) (c : HandshakeConn) :
    Framed c.hs (c.readHalf evp recvs).hs := by
  unfold HandshakeConn.readHalf
  split
  · exact framed_doRead _ _
  · exact .refl _

theorem Reported.step {e : HandshakeEvent} (hr : Reported c.hs) :
    Reported (c.step evp e).hs := by
  cases e with
  | ready sends modOk recvs =>
    rw [HandshakeConn.step]
    split
    · unfold onEvent
      split
      · next hp => exact hr.finish hp ((framed_readHalf recvs _).after (framed_writeHalf sends modOk c))
      · exact hr
    · exact hr
  | deadline =>
    rw [HandshakeConn.step]
    split
    · by_cases hp : c.hs.status = .pending
      · exact hr.finish hp ((framed_fail _ _).after ⟨rfl, rfl, id, fun _ => rfl⟩)
      · -- an ended handshake has no timer, but the handler would leave it alone
        have hfail : ({ c.hs with deadlineArmed := false }.fail .timeout) =
            { c.hs with deadlineArmed := false } := if_pos hp
        rw [onDeadline, hfail]
        unfold HandshakeConn.finish ClientHandshake.finish
        dsimp only
        split
        · exact ⟨hr.unnotified, hr.reports⟩
        · next hend =>
          have hnone : c.hs.reports = [] := hr.unnotified (by simpa [hp] using hend)
          exact ⟨fun hn => (by cases hn), .inr ⟨hp, by simp [hnone]⟩⟩
    · exact hr
  | destroy =>
    rw [HandshakeConn.step]
    unfold ClientHandshake.destroy
    split
    · next hp =>
      have hnone := hr.reports.resolve_right fun hc => hc.1 hp
      exact ⟨fun hn => (by cases hn), .inl hnone⟩
    · exact ⟨fun hn => (by cases hn), hr.reports⟩

theorem reported_run (evp : Evp) (sharedSecret hello incoming : List UInt8)
    (es : List HandshakeEvent) :
    Reported (run (step evp) (opened sharedSecret hello incoming) es).hs :=
  run_invariant (P := fun c : HandshakeConn => Reported c.hs) ⟨fun _ => rfl, .inl rfl⟩
    (fun _ _ hr => hr.step) es

/-! ## What a reader comes to -/

/-- An undisturbed handshake that has not ended is inside its reading. -/
theorem Follows.pending_cases (hf : Follows evp sharedSecret hello total c)
    (hp : c.hs.status = .pending) : (∃ n ≤ hello.length, c.taken = [] ∧
      c.hs = { opening sharedSecret hello with helloSent := n }) ∨
      c.hs = (awaiting sharedSecret hello).feed evp c.taken := by
  cases hf.phase with
  | sending n hn htaken hhs => exact .inl ⟨n, hn, htaken, hhs⟩
  | reading hhs => exact .inr hhs
  | cut hincoming hp' hhs =>
    rw [hhs] at hp
    exact absurd hp (status_fail _ _)

theorem Follows.ended_cases (hf : Follows evp sharedSecret hello total c)
    (hend : c.hs.status ≠ .pending) :
    c.hs = (awaiting sharedSecret hello).feed evp c.taken ∨
      (c.incoming = [] ∧ ((awaiting sharedSecret hello).feed evp c.taken).status = .pending ∧
        c.hs = ((awaiting sharedSecret hello).feed evp c.taken).fail .eof) := by
  cases hf.phase with
  | sending n hn htaken hhs =>
    rw [hhs] at hend
    exact absurd rfl hend
  | reading hhs => exact .inl hhs
  | cut hincoming hp hhs => exact .inr ⟨hincoming, hp, hhs⟩

theorem want_feed_eq_zero (sharedSecret hello bs : List UInt8) :
    (reader evp).want ((reader evp).feed (awaiting sharedSecret hello) bs) = 0 ↔
      ((awaiting sharedSecret hello).feed evp bs).status ≠ .pending := by
  rw [← feed_eq]
  exact ((reading_awaiting sharedSecret hello).feed evp bs).feedWant_eq_zero

/-- Where one undisturbed handshake has ended no other reads on. -/
theorem Follows.taken_isPrefix {c c' : HandshakeConn} (hf : Follows evp sharedSecret hello total c)
    (hf' : Follows evp sharedSecret hello total c') (hend : c.hs.status ≠ .pending) :
    c'.taken <+: c.taken := by
  have hpre : c.taken <+: total := ⟨_, hf.split⟩
  have hpre' : c'.taken <+: total := ⟨_, hf'.split⟩
  rcases hf.ended_cases hend with hhs | ⟨hincoming, -, -⟩
  · exact hf'.within.prefix_of_ended hpre' hpre ((want_feed_eq_zero _ _ _).mpr (hhs ▸ hend))
  · -- all there is was read
    have hall : c.taken = total := by
      have hsplit := hf.split
      rwa [hincoming, List.append_nil] at hsplit
    rw [hall]
    exact hpre'

/-- Two undisturbed handshakes that have ended stand at the same point. -/
theorem Follows.eq_of_ended {c c' : HandshakeConn} (hf : Follows evp sharedSecret hello total c)
    (hf' : Follows evp sharedSecret hello total c') (hend : c.hs.status ≠ .pending)
    (hend' : c'.hs.status ≠ .pending) : c = c' := by
  have htaken : c.taken = c'.taken :=
    (hf'.taken_isPrefix hf hend').eq_of_length
      (Nat.le_antisymm (hf'.taken_isPrefix hf hend').length_le
        (hf.taken_isPrefix hf' hend).length_le)
  have hincoming : c.incoming = c'.incoming := by
    have hsplit := hf.split.trans hf'.split.symm
    rw [htaken] at hsplit
    exact List.append_cancel_left hsplit
  have hhs : c.hs = c'.hs := by
    have h := hf.ended_cases hend
    have h' := hf'.ended_cases hend'
    rw [← htaken] at h'
    rcases h with hhs | ⟨-, hp, hhs⟩ <;> rcases h' with hhs' | ⟨-, hp', hhs'⟩
    · rw [hhs, hhs']
    · rw [hhs] at hend
      exact absurd hp' hend
    · rw [hhs'] at hend'
      exact absurd hp hend'
    · rw [hhs, hhs']
  cases c
  cases c'
  simp_all

theorem Settles.taken_isPrefix {c c' : HandshakeConn} (hs : Settles evp sharedSecret hello total c)
    (hs' : Settles evp sharedSecret hello total c') (hend : c.hs.status ≠ .pending) :
    c'.taken <+: c.taken := by
  obtain ⟨c, hf, rfl⟩ := hs
  obtain ⟨c', hf', rfl⟩ := hs'
  have hend' : c.hs.status ≠ .pending := (status_finish c.hs).symm.trans_ne hend
  have hpre := hf.taken_isPrefix hf' hend'
  exact hpre

theorem Settles.eq_of_ended {c c' : HandshakeConn} (hs : Settles evp sharedSecret hello total c)
    (hs' : Settles evp sharedSecret hello total c') (hend : c.hs.status ≠ .pending)
    (hend' : c'.hs.status ≠ .pending) : c = c' := by
  obtain ⟨c, hf, rfl⟩ := hs
  obtain ⟨c', hf', rfl⟩ := hs'
  rw [hf.eq_of_ended hf' ((status_finish c.hs).symm.trans_ne hend)
    ((status_finish c'.hs).symm.trans_ne hend')]

/-! ## Reading a reply -/

/-- The run of a started handshake. -/
def ran (evp : Evp) (sharedSecret hello incoming : List UInt8) (es : List HandshakeEvent) :
    HandshakeConn :=
  run (step evp) (opened sharedSecret hello incoming) es

/-- A handshake over the reply and what comes behind it: it has read a part of the reply, and
    completes, once and with the key, exactly when that part is the whole. -/
structure ReadsReply (key reply rest : List UInt8) (c : HandshakeConn) : Prop where
  split : c.taken ++ c.incoming = reply ++ rest
  within : c.taken <+: reply
  status : c.hs.status = if c.taken = reply then .done else .pending
  key : c.taken = reply → c.hs.doneSessionKey = some key ∧ c.incoming = rest
  reports : c.hs.reports = if c.taken = reply then [.done] else []

theorem Settles.readsReply {f : ReplyFields} {encrypted rest : List UInt8}
    (hlen : encrypted.length = 48)
    (hopen : aeadOpen evp .aes256Gcm sharedSecret f.replyNonce [] encrypted = some f.sessionKey)
    (hs : Settles evp sharedSecret hello (f.records encrypted ++ rest) c) :
    ReadsReply f.sessionKey (f.records encrypted) rest c := by
  obtain ⟨c, hf, rfl⟩ := hs
  obtain ⟨hdone, hkey, hall⟩ := feed_records hello hlen hopen
  have hend : (reader evp).want ((reader evp).feed (awaiting sharedSecret hello)
      (f.records encrypted)) = 0 := by
    rw [want_feed_eq_zero, hdone]
    decide
  have hwithin : c.taken <+: f.records encrypted :=
    hf.within.prefix_of_ended ⟨_, hf.split⟩ (List.prefix_append _ _) hend
  have hframed : ∀ bs, Framed (awaiting sharedSecret hello)
    ((awaiting sharedSecret hello).feed evp bs) := fun bs => framed_feed _ _ bs
  by_cases htaken : c.taken = f.records encrypted
  · have hincoming : c.incoming = rest := by
      have hsplit := hf.split
      rw [htaken] at hsplit
      exact List.append_cancel_left hsplit
    have hhs : c.hs = (awaiting sharedSecret hello).feed evp (f.records encrypted) := by
      cases hf.phase with
      | sending n hn hnil hhs =>
        rw [hnil] at htaken
        exact absurd htaken.symm (by simp [ReplyFields.records])
      | reading hhs => rw [hhs, htaken]
      | cut hnil hp hhs =>
        rw [htaken, hdone] at hp
        cases hp
    have hstatus : c.hs.status = .done := by rw [hhs, hdone]
    have hnotified : c.hs.notified = false := by
      rw [hhs, (hframed _).notified]
      rfl
    have hreports : c.hs.reports = [] := by
      rw [hhs, (hframed _).reports]
      rfl
    refine ⟨hf.split, hwithin, ?_, fun _ => ⟨?_, hincoming⟩, ?_⟩
    · simp [HandshakeConn.finish, htaken, hstatus]
    · simp [HandshakeConn.finish, doneSessionKey, hdone, hhs, hkey]
    · have hend' : c.hs.status ≠ .pending := by simp [hstatus]
      simp [HandshakeConn.finish, reports_finish hend' hnotified, htaken, hstatus, hreports]
  · have hp : ((awaiting sharedSecret hello).feed evp c.taken).status = .pending := by
      have hwant := hall c.taken hwithin htaken
      by_contra hne
      exact hwant ((want_feed_eq_zero _ _ _).mpr hne)
    have hpending : c.hs.status = .pending ∧ c.hs.reports = [] := by
      cases hf.phase with
      | sending n hn hnil hhs =>
        rw [hhs]
        exact ⟨rfl, rfl⟩
      | reading hhs =>
        rw [hhs]
        exact ⟨hp, (hframed _).reports⟩
      | cut hnil hp' hhs =>
        -- there would be nothing left to read, but the reply is not over
        have hsplit := hf.split
        rw [hnil, List.append_nil] at hsplit
        refine absurd (hwithin.eq_of_length (Nat.le_antisymm hwithin.length_le ?_)) htaken
        rw [hsplit, List.length_append]
        omega
    rw [finish_of_pending hpending.1]
    exact ⟨hf.split, hwithin, by rw [if_neg htaken, hpending.1], fun h => absurd h htaken,
      by rw [if_neg htaken, hpending.2]⟩

/-! ### Enough bytes -/

/-- A kernel that has bytes whenever it is not interrupted. -/
def Gives (recvs : List RecvAnswer) : Prop := ∀ answer ∈ recvs, answer ≠ .again ∧ answer ≠ .failed

/-- The number of the calls that are given bytes. -/
def given (recvs : List RecvAnswer) : Nat := recvs.countP fun | .data _ => true | _ => false

/-- As many calls as the message has bytes are enough to read it. -/
theorem Follows.doRead_enough {reply rest : List UInt8} {recvs : List RecvAnswer}
    (hf : Follows evp sharedSecret hello (reply ++ rest) c)
    (hend : ((awaiting sharedSecret hello).feed evp reply).status ≠ .pending)
    (hall : (reader evp).Within (awaiting sharedSecret hello) reply)
    (hhs : c.hs = (awaiting sharedSecret hello).feed evp c.taken) (hgives : Gives recvs)
    (henough : reply.length ≤ c.taken.length + given recvs) :
    (c.doRead evp recvs).taken = reply := by
  have hpre : ∀ {c : HandshakeConn}, Follows evp sharedSecret hello (reply ++ rest) c →
      c.taken <+: reply := fun hf => hf.within.prefix_of_ended ⟨_, hf.split⟩ (List.prefix_append _ _)
    ((want_feed_eq_zero _ _ _).mpr hend)
  induction recvs generalizing c with
  | nil => exact (hpre hf).eq_of_length (Nat.le_antisymm (hpre hf).length_le henough)
  | cons answer recvs ih =>
    have hgives' : Gives recvs := fun a ha => hgives a (List.mem_cons_of_mem _ ha)
    unfold HandshakeConn.doRead
    split
    · next hcond =>
      cases answer with
      | data n =>
        dsimp only
        split
        · next hnil =>
          -- nothing is left to read, so the whole message was read and has ended the reader
          have hsplit := hf.split
          rw [(received_eq_nil hcond.2).mp hnil, List.append_nil] at hsplit
          refine (hpre hf).eq_of_length (Nat.le_antisymm (hpre hf).length_le ?_)
          rw [hsplit, List.length_append]
          omega
        · next hne =>
          have hpos := List.length_pos_of_ne_nil hne
          have hf' := hf.feedBytes (n := n) hcond.1 hhs
          refine ih hf' ?_ hgives' ?_
          · simp only [HandshakeConn.feedBytes]
            rw [feed_append (reading_awaiting _ _), ← hhs]
          · simp only [HandshakeConn.feedBytes, List.length_append]
            simp only [given, List.countP_cons] at henough ⊢
            simp only [if_true] at henough
            omega
      | intr => exact ih hf hhs hgives' (by simpa [given] using henough)
      | again => exact absurd rfl (hgives _ List.mem_cons_self).1
      | failed => exact absurd rfl (hgives _ List.mem_cons_self).2
    · next hcond =>
      by_contra hne
      have hwant := hall c.taken (hpre hf) hne
      rw [← feed_eq, ← hhs] at hwant
      have hp : c.hs.status = .pending := pending_of_feedWant hwant
      exact hcond ⟨hp, (feedWant_of_pending hp).symm.trans_ne hwant⟩

/-- Writing the ClientHello at once, or what is left of it, lets the reading go on. -/
theorem Follows.writeHalf_took (hf : Follows evp sharedSecret hello total c)
    (hp : c.hs.status = .pending) :
    (c.writeHalf [.took hello.length] true).hs = (awaiting sharedSecret hello).feed evp c.taken ∧
      (c.writeHalf [.took hello.length] true).taken = c.taken := by
  unfold HandshakeConn.writeHalf
  split
  · next hs =>
    refine ⟨?_, rfl⟩
    rcases hf.pending_cases hp with ⟨n, hn, hnil, hhs⟩ | hhs
    · dsimp only
      rw [hhs, doWrite_took sharedSecret hello hn, hnil]
      rfl
    · have hr := (reading_awaiting sharedSecret hello).feed evp c.taken
      rw [← hhs] at hr
      rcases hr.state hp with hs' | hs' <;> cases hs.symm.trans hs'
  · next hs =>
    refine ⟨?_, rfl⟩
    rcases hf.pending_cases hp with ⟨n, hn, hnil, hhs⟩ | hhs
    · rw [hhs] at hs
      exact absurd rfl hs
    · exact hhs

/-- An event with bytes enough completes the handshake. -/
theorem Settles.completes {f : ReplyFields} {encrypted rest : List UInt8} {recvs : List RecvAnswer}
    (hlen : encrypted.length = 48)
    (hopen : aeadOpen evp .aes256Gcm sharedSecret f.replyNonce [] encrypted = some f.sessionKey)
    (hs : Settles evp sharedSecret hello (f.records encrypted ++ rest) c) (hgives : Gives recvs)
    (henough : (f.records encrypted).length ≤ given recvs) :
    (c.step evp (.ready [.took hello.length] true recvs)).hs.status = .done := by
  obtain ⟨hdone, -, hall⟩ := feed_records hello hlen hopen
  by_cases hp : c.hs.status = .pending
  · obtain ⟨c, hf, rfl⟩ := hs
    have hp' : c.hs.status = .pending := (status_finish _).symm.trans hp
    rw [finish_of_pending hp']
    have hregistered : c.hs.fdRegistered = true := by
      rcases hf.pending_cases hp' with ⟨n, hn, hnil, hhs⟩ | hhs
      · rw [hhs]
        rfl
      · have hreg := (framed_feed evp (awaiting sharedSecret hello) c.taken).registered
        rw [← hhs] at hreg
        exact hreg hp'
    obtain ⟨hreads, htaken⟩ := hf.writeHalf_took hp'
    have hfollows : Follows evp sharedSecret hello (f.records encrypted ++ rest)
        ((c.writeHalf [.took hello.length] true).readHalf evp recvs) :=
      (hf.writeHalf hp' (by simp)).readHalf fun hm => (hgives _ hm).2 rfl
    have hall' : ((c.writeHalf [.took hello.length] true).readHalf evp recvs).taken =
        f.records encrypted := by
      rw [← htaken] at hreads
      have hr := (reading_awaiting sharedSecret hello).feed evp
        (c.writeHalf [.took hello.length] true).taken
      rw [← hreads] at hr
      have hfw : Follows evp sharedSecret hello _ (c.writeHalf [.took hello.length] true) :=
        hf.writeHalf hp' (by simp)
      have hnot : ((awaiting sharedSecret hello).feed evp (f.records encrypted)).status ≠ .pending := by
        rw [hdone]
        decide
      have henough' := henough.trans (Nat.le_add_left _
        (c.writeHalf [.took hello.length] true).taken.length)
      unfold HandshakeConn.readHalf
      split
      · exact hfw.doRead_enough hnot hall hreads hgives henough'
      · next hcond =>
        have hended : (c.writeHalf [.took hello.length] true).hs.status ≠ .pending :=
          fun hp => hcond ⟨hp, hr.state hp⟩
        have hpre := hfw.within.prefix_of_ended ⟨_, hfw.split⟩ (List.prefix_append _ _)
          ((want_feed_eq_zero _ _ _).mpr hnot)
        by_contra hne
        refine hall _ hpre hne ((want_feed_eq_zero _ _ _).mpr ?_)
        rwa [hreads] at hended
    have hsettles : Settles evp sharedSecret hello (f.records encrypted ++ rest)
        ((c.writeHalf [.took hello.length] true).readHalf evp recvs).finish := ⟨_, hfollows, rfl⟩
    have hread := hsettles.readsReply hlen hopen
    rw [HandshakeConn.step, if_pos hregistered, onEvent, if_pos hp', hread.status]
    exact if_pos hall'
  · have hread := hs.readsReply hlen hopen
    have hdone' : c.hs.status = .done := by
      rw [hread.status] at hp ⊢
      split
      · rfl
      · next hne => exact absurd (if_neg hne) hp
    rw [HandshakeConn.step]
    split
    · rw [onEvent, if_neg hp, hdone']
    · exact hdone'

end HandshakeConn

/-! ## The result -/

open HandshakeConn

/-- Every reply is read to its end and not beyond, however it is split, and gives its key. -/
def RecoversReply (evp : Evp) : Prop :=
  ∀ (f : ReplyFields) (sharedSecret : List UInt8), ∃ reply, f.composed evp sharedSecret = some reply ∧
    ∀ (hello rest : List UInt8) (es : List HandshakeEvent), (∀ e ∈ es, e.Undisturbed) →
      ReadsReply f.sessionKey reply rest (ran evp sharedSecret hello (reply ++ rest) es) ∧
      ∀ recvs, Gives recvs → reply.length ≤ given recvs →
        (ran evp sharedSecret hello (reply ++ rest)
          (es ++ [.ready [.took hello.length] true recvs])).hs.status = .done

/-- Whatever the peer sends, where a handshake ends and what it ends with do not depend on the split. -/
def SplitIndependent (evp : Evp) : Prop :=
  ∀ (sharedSecret hello incoming : List UInt8) (es es' : List HandshakeEvent),
    (∀ e ∈ es, e.Undisturbed) → (∀ e ∈ es', e.Undisturbed) →
    (ran evp sharedSecret hello incoming es).hs.status ≠ .pending →
    (ran evp sharedSecret hello incoming es').taken <+: (ran evp sharedSecret hello incoming es).taken ∧
      ((ran evp sharedSecret hello incoming es').hs.status ≠ .pending →
        ran evp sharedSecret hello incoming es = ran evp sharedSecret hello incoming es')

/-- In every run, disturbed or not, at most one outcome is reported, and it is the one that stays. -/
def ReportsOnce (evp : Evp) : Prop :=
  ∀ (sharedSecret hello incoming : List UInt8) (es : List HandshakeEvent),
    Reported (ran evp sharedSecret hello incoming es).hs

/-- The reply's round trip: the client recovers the session key from every split of the reply, reads
    no byte behind it and reports once; on other bytes its outcome does not depend on the split. -/
theorem reply_round_trip {evp : Evp} (hevp : evp.Lawful) :
    RecoversReply evp ∧ SplitIndependent evp ∧ ReportsOnce evp := by
  refine ⟨?_, ?_, fun sharedSecret hello incoming es => reported_run evp sharedSecret hello incoming es⟩
  · intro f sharedSecret
    obtain ⟨encrypted, hlen, hopen, hcomposed⟩ := f.composed_some hevp sharedSecret
    refine ⟨_, hcomposed, fun hello rest es hes => ?_⟩
    have hs := settles_run evp sharedSecret hello (f.records encrypted ++ rest) hes
    refine ⟨hs.readsReply hlen hopen, fun recvs hgives henough => ?_⟩
    rw [ran, run_concat]
    exact hs.completes hlen hopen hgives henough
  · intro sharedSecret hello incoming es es' hes hes' hend
    have hs := settles_run evp sharedSecret hello incoming hes
    have hs' := settles_run evp sharedSecret hello incoming hes'
    exact ⟨hs.taken_isPrefix hs' hend, hs.eq_of_ended hs' hend⟩

theorem length_exampleSessionId : (List.replicate 32 (2 : UInt8)).length = 32 := rfl

/-- A reply with the shortest certificate. -/
def exampleReply : ReplyFields where
  sessionKey := List.replicate 32 7
  replyNonce := List.replicate 12 1
  clientSessionId := List.replicate 32 2
  pad4 := [0, 0, 0, 0]
  fakeCert := List.replicate 27 3
  sessionKey_length := by decide
  replyNonce_length := by decide
  clientSessionId_length := length_exampleSessionId
  pad4_length := by decide
  fakeCert_length := by decide

theorem reply_round_trip_byteByByte : ∃ reply, exampleReply.composed .plain [5] = some reply ∧
    (ran .plain [5] [1, 2] (reply ++ [9]) [.ready [.took 1, .again] true [],
      .ready [.took 2] true (List.replicate reply.length (.data 0))]).hs.status = .done := by
  obtain ⟨reply, hreply, hread⟩ := (reply_round_trip Evp.plain_lawful).1 exampleReply [5]
  refine ⟨reply, hreply, (hread [1, 2] [9] [.ready [.took 1, .again] true []] ?_).2 _ ?_ ?_⟩
  · simp [HandshakeEvent.Undisturbed]
  · simp [Gives]
  · simp [given, List.countP_replicate]

end Cloak
