import Cloak.Mux.StreamRelay

set_option autoImplicit false

/-! # What a stream relay delivers

`Assembled` says which bytes an ordered stream has for its reader, whatever frames it was fed: the
payloads of the frames it took, by their numbers. A relay's `to_fd` holds what it has read of those
and not sent (`Sound`), and after each entry point a stream with something to read is one whose relay
waits for its descriptor (`Settled`). -/

namespace Cloak

open Lib

/-! ## The bytes of a stream -/

/-- The receive side `r` of a stream that was fed `fed` and from which `out` was read: frame `n` of
    the stream is `F n`. -/
structure Assembled (fed : List Frame) (F : Nat → Frame) (out : List UInt8) (r : OrderedRecv) :
    Prop where
  data : ∀ n < r.nextRecvSeq, F n ∈ fed ∧ (F n).seq = n ∧ (F n).closing = closingNothing
  delivered : out ++ r.recvBytes.contents = (List.range r.nextRecvSeq).flatMap fun n => (F n).payload
  pending : ∀ pf ∈ r.heap.toList, F pf.seq ∈ fed ∧ (F pf.seq).seq = pf.seq
    ∧ (F pf.seq).closing = pf.closing ∧ (F pf.seq).payload = pf.payload

namespace Assembled

variable {fed : List Frame} {F : Nat → Frame} {out : List UInt8} {r : OrderedRecv}

theorem fresh (q : ByteQueue) (hopen : q.closed = false) (hq : q.contents = []) (n : Nat)
    (F : Nat → Frame) : Assembled [] F [] (OrderedRecv.fresh q hopen n) where
  data := by simp [OrderedRecv.fresh]
  delivered := by simpa [OrderedRecv.fresh] using hq
  pending := by simp [OrderedRecv.fresh]

theorem deliverHead (hr : Assembled fed F out r) (h : 0 < r.heap.size)
    (hseq : r.heap[0].seq = r.nextRecvSeq) (hdata : r.heap[0].closing = closingNothing)
    (hfree : r.heap[0].payload.length ≤ r.recvBytes.freeSpace) :
    Assembled fed F out (r.deliverHead h hseq) := by
  obtain ⟨hmem, hnum, hclosing, hpayload⟩ := hr.pending _ (r.head_mem h)
  rw [hseq] at hmem hnum hclosing hpayload
  have hopen : r.recvBytes.closed = false := by
    rw [r.closed_eq, Bool.eq_false_iff]
    intro hc
    exact absurd (r.closed_lt hc _ (r.head_mem h)) (by omega)
  refine ⟨?_, ?_, fun pf hpf => hr.pending pf (OrderedRecv.mem_of_mem_heapPop hpf)⟩
  · change ∀ n < r.nextRecvSeq + 1, _
    intro n hn
    by_cases hlast : n = r.nextRecvSeq
    · subst hlast
      exact ⟨hmem, hnum, hclosing.trans hdata⟩
    · exact hr.data n (by omega)
  · change out ++ (r.recvBytes.write r.heap[0].payload).1.contents
      = (List.range (r.nextRecvSeq + 1)).flatMap fun n => (F n).payload
    rw [ByteQueue.contents_write _ _ hopen hfree, List.range_succ, List.flatMap_append, ← hr.delivered,
      List.flatMap_singleton, hpayload, List.append_assoc]

theorem closeHead (hr : Assembled fed F out r) (h : 0 < r.heap.size)
    (hseq : r.heap[0].seq = r.nextRecvSeq) : Assembled fed F out (r.closeHead h hseq) :=
  ⟨hr.data, hr.delivered, fun pf hpf => hr.pending pf (OrderedRecv.mem_of_mem_heapPop hpf)⟩

theorem tryDrain (hr : Assembled fed F out r) (fuel : Nat) :
    Assembled fed F out (OrderedRecv.tryDrain fuel r).1 :=
  OrderedRecv.tryDrain_induction
    (fun _ h hseq hr hdata hfree => hr.deliverHead h hseq hdata hfree)
    (fun _ h hseq hr _ => hr.closeHead h hseq) fuel r hr

theorem read (hr : Assembled fed F out r) (outCap : Nat) :
    Assembled fed F (out ++ readBytes (r.read outCap).2) (r.read outCap).1 := by
  obtain ⟨_, _, heq⟩ | ⟨_, _, heq⟩ | ⟨_, heq⟩ := r.read_cases outCap
  · rw [heq]
    simpa [readBytes] using hr
  · rw [heq]
    simpa [readBytes] using hr
  · rw [heq]
    apply Assembled.tryDrain
    refine ⟨hr.data, ?_, hr.pending⟩
    change out ++ r.recvBytes.contents.take outCap ++ (r.recvBytes.read outCap).2.contents = _
    rw [ByteQueue.contents_read, List.append_assoc, List.take_append_drop]
    exact hr.delivered

/-- A frame that is taken becomes the frame with its number. -/
theorem feedFrame (hr : Assembled fed F out r) (f : Frame) (allocs : FeedAllocs) :
    ∃ F', Assembled (fed ++ [f]) F' out (r.feedFrame f allocs).1 := by
  obtain heq | ⟨r', hadm, heq, _⟩ := r.feedFrame_cases f allocs
  · rw [heq]
    refine ⟨F, fun n hn => ?_, hr.delivered, fun pf hpf => ?_⟩
    · obtain ⟨hmem, hrest⟩ := hr.data n hn
      exact ⟨List.mem_append_left _ hmem, hrest⟩
    · obtain ⟨hmem, hrest⟩ := hr.pending pf hpf
      exact ⟨List.mem_append_left _ hmem, hrest⟩
  · obtain ⟨_, hnext, hnew, _, rfl⟩ := OrderedRecv.accept_eq_some hadm
    refine ⟨Function.update F f.seq f, ?_⟩
    rw [heq]
    apply Assembled.tryDrain
    have hnext : r.nextRecvSeq ≤ f.seq := hnext
    have hfresh : f.seq ∉ r.heap.toList.map PendingFrame.seq := by
      rw [← OrderedRecv.heapContainsSeq_iff, hnew]
      exact Bool.false_ne_true
    have hold : ∀ n < r.nextRecvSeq, Function.update F f.seq f n = F n := fun n hn =>
      Function.update_of_ne (by omega) _ _
    refine ⟨fun n hn => ?_, ?_, fun pf hpf => ?_⟩
    · obtain ⟨hmem, hrest⟩ := hr.data n hn
      rw [hold n hn]
      exact ⟨List.mem_append_left _ hmem, hrest⟩
    · refine hr.delivered.trans (List.flatMap_congr fun n hn => ?_)
      rw [hold n (List.mem_range.mp hn)]
    · obtain rfl | hpf := List.mem_cons.mp ((heapPush_perm _ _ _).subset hpf)
      · simp
      · have hne : pf.seq ≠ f.seq := fun hc => hfresh (hc ▸ List.mem_map_of_mem hpf)
        rw [Function.update_of_ne hne]
        obtain ⟨hmem, hrest⟩ := hr.pending pf hpf
        exact ⟨List.mem_append_left _ hmem, hrest⟩

end Assembled

namespace StreamRelay

/-! ## The record -/

/-- The bytes that passed the relay in the way `k`. -/
def moved (k : Transfer) (io : List StreamRelayIo) : List UInt8 :=
  io.flatMap fun x => if x.via = k then x.bytes else []

variable {io io' : List StreamRelayIo} {k : Transfer}

@[simp] theorem moved_append : moved k (io ++ io') = moved k io ++ moved k io' :=
  List.flatMap_append

@[simp] theorem moved_singleton (x : StreamRelayIo) :
    moved k [x] = if x.via = k then x.bytes else [] := List.flatMap_singleton ..

/-- At every moment the descriptor was sent a prefix of what the stream gave, and the stream a prefix
    of what the descriptor gave. -/
def Safe (io : List StreamRelayIo) : Prop :=
  ∀ h, h <+: io → moved .sent h <+: moved .got h ∧ moved .frame h <+: moved .read h

theorem Safe.append {x : StreamRelayIo} (h : Safe io)
    (hsent : moved .sent (io ++ [x]) <+: moved .got (io ++ [x]))
    (hframe : moved .frame (io ++ [x]) <+: moved .read (io ++ [x])) : Safe (io ++ [x]) := by
  intro h' hh'
  rcases List.prefix_concat_iff.mp hh' with rfl | hh'
  · exact ⟨hsent, hframe⟩
  · exact h h' hh'

/-- What a write to the stream adds to the record. -/
theorem moved_write (bs : List UInt8) (fs : List SealedFrame) :
    moved k (⟨.read, bs⟩ :: fs.map (⟨.frame, ·.frame.payload⟩))
      = (if Transfer.read = k then bs else [])
        ++ if Transfer.frame = k then payloads (fs.map SealedFrame.frame) else [] := by
  have hframes : moved k (fs.map (⟨.frame, ·.frame.payload⟩))
      = if Transfer.frame = k then payloads (fs.map SealedFrame.frame) else [] := by
    induction fs with
    | nil => simp [moved]
    | cons f fs ih =>
      rw [List.map_cons, ← List.singleton_append, moved_append, moved_singleton, ih]
      cases k <;> simp [payloads]
  rw [← List.singleton_append, moved_append, moved_singleton, hframes]

/-- A write to the stream sends what was read last, or the front of it. -/
theorem Safe.write {bs : List UInt8} {fs : List SealedFrame} (h : Safe io)
    (hio : moved .frame io = moved .read io) (hfs : payloads (fs.map SealedFrame.frame) <+: bs) :
    Safe (io ++ ⟨.read, bs⟩ :: fs.map (⟨.frame, ·.frame.payload⟩)) := by
  have hsent := (h io (List.prefix_refl io)).1
  induction fs using List.reverseRecOn with
  | nil =>
    refine h.append (by simpa using hsent) ?_
    rw [moved_append, moved_append, hio]
    exact (List.prefix_append_right_inj _).mpr List.nil_prefix
  | append_singleton fs f ih =>
    have hprev : payloads (fs.map SealedFrame.frame) <+: bs := by
      rw [List.map_append, payloads_append] at hfs
      exact (List.prefix_append _ _).trans hfs
    have hall : io ++ ⟨.read, bs⟩ :: (fs ++ [f]).map (⟨.frame, ·.frame.payload⟩)
        = (io ++ ⟨.read, bs⟩ :: fs.map (⟨.frame, ·.frame.payload⟩)) ++ [⟨.frame, f.frame.payload⟩] := by
      simp
    have hmoved : ∀ k, moved k (io ++ ⟨.read, bs⟩ :: (fs ++ [f]).map (⟨.frame, ·.frame.payload⟩))
        = moved k io ++ ((if Transfer.read = k then bs else [])
          ++ if Transfer.frame = k then payloads ((fs ++ [f]).map SealedFrame.frame) else []) :=
      fun k => by rw [moved_append, moved_write]
    rw [hall]
    refine (ih hprev).append ?_ ?_
    · rw [← hall, hmoved, hmoved]
      simpa using hsent
    · rw [← hall, hmoved, hmoved, hio]
      simpa using hfs

/-! ## Filling and draining -/

/-- The bytes in the ring of an ordered stream. -/
def ring (stream : Stream) : List UInt8 :=
  match stream.recv with
  | .ordered r => r.recvBytes.contents
  | .unordered _ => []

/-- An ordered stream has been closed, and nothing is left to read. -/
def AtEnd (stream : Stream) : Prop :=
  ∃ r, stream.recv = .ordered r ∧ r.recvBytes.contents = [] ∧ r.recvClosingSeen = true

theorem AtEnd.ring_eq {stream : Stream} (h : AtEnd stream) : ring stream = [] := by
  obtain ⟨r, hrecv, hnil, _⟩ := h
  rw [ring, hrecv]
  exact hnil

/-- The relay's queue holds what was read from the stream and not sent. -/
structure Sound (fed : List Frame) (sr : StreamRelay) : Prop where
  safe : Safe sr.io
  queue : moved .got sr.io = moved .sent sr.io ++ sr.toFd.contents
  unclosed : sr.toFd.closed = false
  recv : ∃ r F, sr.stream.recv = .ordered r ∧ Assembled fed F (moved .got sr.io) r ∧ r.NoStall
  ended : sr.streamEnded = true → AtEnd sr.stream

/-- What moving bytes from the stream to the descriptor leaves alone. -/
structure Kept (sr sr' : StreamRelay) : Prop where
  fdReadPaused : sr'.fdReadPaused = sr.fdReadPaused
  interest : sr'.interest = sr.interest
  rateTimer : sr'.rateTimer = sr.rateTimer
  finishTimer : sr'.finishTimer = sr.finishTimer
  done : sr'.done = sr.done
  byStream : sr'.byStream = sr.byStream
  cap : sr'.toFd.cap = sr.toFd.cap
  writeClosed : sr'.stream.writeClosed = sr.stream.writeClosed
  read : moved .read sr'.io = moved .read sr.io
  frame : moved .frame sr'.io = moved .frame sr.io

theorem Kept.refl (sr : StreamRelay) : sr.Kept sr :=
  ⟨rfl, rfl, rfl, rfl, rfl, rfl, rfl, rfl, rfl, rfl⟩

theorem Kept.trans {sr sr' sr'' : StreamRelay} (h : sr.Kept sr') (h' : sr'.Kept sr'') :
    sr.Kept sr'' :=
  ⟨h'.fdReadPaused.trans h.fdReadPaused, h'.interest.trans h.interest, h'.rateTimer.trans h.rateTimer,
    h'.finishTimer.trans h.finishTimer, h'.done.trans h.done, h'.byStream.trans h.byStream,
    h'.cap.trans h.cap, h'.writeClosed.trans h.writeClosed, h'.read.trans h.read,
    h'.frame.trans h.frame⟩

variable {fed : List Frame} {sr : StreamRelay}

/-- There is no more to be had from the stream, or no room for it. -/
def Filled (sr : StreamRelay) : Prop := sr.toFd.freeSpace = 0 ∨ ring sr.stream = []

/-- What a read from the stream finds. -/
theorem Sound.read_cases (h : sr.Sound fed) {n : Nat} (hn : 0 < n) :
    (AtEnd sr.stream ∧ sr.stream.read n = (sr.stream, .eof))
      ∨ (ring sr.stream = [] ∧ sr.stream.read n = (sr.stream, .bytes []))
      ∨ ring sr.stream ≠ [] ∧ ∃ stream b bs, sr.stream.read n = (stream, .bytes (b :: bs))
        ∧ (b :: bs).length ≤ n := by
  obtain ⟨r, F, hrecv, _⟩ := h.recv
  have hnil : r.recvBytes.contents.take n = [] → r.recvBytes.contents = [] := fun htake => by
    obtain hzero | hnil := List.take_eq_nil_iff.mp htake
    · omega
    · exact hnil
  have hself : { sr.stream with recv := .ordered r } = sr.stream := by rw [← hrecv]
  rw [Stream.read, hrecv]
  dsimp only
  obtain ⟨htake, heof, heq⟩ | ⟨htake, _, heq⟩ | ⟨hne, heq⟩ := r.read_cases n
  · refine .inl ⟨⟨r, hrecv, hnil htake, ?_⟩, by rw [heq, hself]⟩
    rw [← r.closed_eq]
    exact ((r.recvBytes.isEof_iff).mp heof).1
  · exact .inr (.inl ⟨by rw [ring, hrecv]; exact hnil htake, by rw [heq, hself]⟩)
  · obtain ⟨b, bs, hbs⟩ := List.exists_cons_of_ne_nil hne
    rw [heq, hbs]
    refine .inr (.inr ⟨fun hnil => hne ?_, _, b, bs, rfl, ?_⟩)
    · rw [ring, hrecv] at hnil
      dsimp only at hnil
      rw [hnil, List.take_nil]
    · rw [← hbs]
      exact List.length_take_le n _

theorem Sound.takeIn (h : sr.Sound fed) (hopen : sr.streamEnded = false) {stream : Stream}
    {bs : List UInt8} {n : Nat} (hread : sr.stream.read n = (stream, .bytes bs))
    (hfit : bs.length ≤ sr.toFd.freeSpace) : (sr.takeIn stream bs).Sound fed := by
  obtain ⟨r, F, hrecv, hasm, hstall⟩ := h.recv
  rw [Stream.read, hrecv] at hread
  obtain ⟨rfl, hbytes⟩ := Prod.mk.inj hread
  have hqueue : moved .got (sr.io ++ [⟨.got, bs⟩])
      = moved .sent (sr.io ++ [⟨.got, bs⟩]) ++ (sr.toFd.write bs).1.contents := by
    rw [ByteQueue.contents_write _ _ h.unclosed hfit, ← List.append_assoc]
    simp [h.queue]
  refine ⟨h.safe.append ⟨_, hqueue.symm⟩ ?_, hqueue, by simpa [StreamRelay.takeIn] using h.unclosed,
    ⟨(r.read n).1, F, rfl, ?_, OrderedRecv.read_noStall r n hstall⟩,
    fun hended => absurd (hopen ▸ hended) Bool.false_ne_true⟩
  · simpa using (h.safe sr.io (List.prefix_refl _)).2
  · have hgot := hasm.read n
    rw [hbytes] at hgot
    simpa [StreamRelay.takeIn, readBytes] using hgot

theorem kept_takeIn {stream : Stream} {bs : List UInt8} {n : Nat}
    (hread : sr.stream.read n = (stream, .bytes bs)) : sr.Kept (sr.takeIn stream bs) := by
  have hclosed : stream.writeClosed = sr.stream.writeClosed := by
    rw [← sr.stream.writeClosed_read n, hread]
  refine ⟨rfl, rfl, rfl, rfl, rfl, rfl, ?_, hclosed, ?_, ?_⟩ <;> simp [takeIn]

/-- What `try_fill_from_stream` has done: nothing is left to be had, and if it moved nothing the queue
    is as it was, else there is something in it. -/
structure FillSpec (fed : List Frame) (sr : StreamRelay) (res : StreamRelay × Nat) : Prop where
  sound : res.1.Sound fed
  kept : sr.Kept res.1
  filled : res.1.Filled
  unmoved : res.2 = 0 → res.1.toFd = sr.toFd
  holds : 0 < res.2 → 0 < res.1.toFd.len

theorem fillLoop_spec {fuel : Nat} (h : sr.Sound fed) (hopen : sr.streamEnded = false)
    (hfuel : sr.toFd.freeSpace < fuel) : FillSpec fed sr (fillLoop fuel sr) := by
  induction fuel generalizing sr with
  | zero => exact absurd hfuel (Nat.not_lt_zero _)
  | succ fuel ih =>
    by_cases hroom : sr.toFd.freeSpace = 0
    · rw [fillLoop, if_pos hroom]
      exact ⟨h, .refl sr, .inl hroom, fun _ => rfl, nofun⟩
    · have hchunk : streamRelayChunk = 16384 := rfl
      have hpos : 0 < min sr.toFd.freeSpace streamRelayChunk := by omega
      obtain ⟨hend, heq⟩ | ⟨hnil, heq⟩ | ⟨_, stream, b, bs, heq, hfit⟩ := h.read_cases hpos
      · rw [fillLoop, if_neg hroom, heq]
        exact ⟨⟨h.safe, h.queue, h.unclosed, h.recv, fun _ => hend⟩,
          ⟨rfl, rfl, rfl, rfl, rfl, rfl, rfl, rfl, rfl, rfl⟩, .inr hend.ring_eq, fun _ => rfl, nofun⟩
      · rw [fillLoop, if_neg hroom, heq]
        exact ⟨h, .refl sr, .inr hnil, fun _ => rfl, nofun⟩
      · have hlen : (b :: bs).length ≤ sr.toFd.freeSpace := by omega
        have hsound := h.takeIn hopen heq hlen
        have hwrite := ByteQueue.len_write sr.toFd (b :: bs) h.unclosed hlen
        have hfree : (sr.takeIn stream (b :: bs)).toFd.freeSpace < fuel := by
          simp only [takeIn, ByteQueue.freeSpace, ByteQueue.cap_write, hwrite] at hlen hfuel ⊢
          simp only [List.length_cons] at hlen ⊢
          omega
        have hspec := ih hsound hopen hfree
        rw [fillLoop, if_neg hroom, heq]
        refine ⟨hspec.sound, (kept_takeIn heq).trans hspec.kept, hspec.filled,
          fun hzero => by simp at hzero, fun _ => ?_⟩
        by_cases hmore : (fillLoop fuel (sr.takeIn stream (b :: bs))).2 = 0
        · change 0 < (fillLoop fuel (sr.takeIn stream (b :: bs))).1.toFd.len
          rw [hspec.unmoved hmore, takeIn, hwrite, List.length_cons]
          omega
        · exact hspec.holds (Nat.pos_of_ne_zero hmore)

theorem tryFill_spec (h : sr.Sound fed) : FillSpec fed sr sr.tryFillFromStream := by
  unfold tryFillFromStream
  split
  · next hended => exact ⟨h, .refl sr, .inr (h.ended hended).ring_eq, fun _ => rfl, nofun⟩
  · next hopen => exact fillLoop_spec h (by simpa using hopen) (Nat.lt_succ_self _)

theorem Sound.sendOut (h : sr.Sound fed) (n : Nat) : (sr.sendOut n).Sound fed := by
  obtain ⟨r, F, hrecv, hasm, hstall⟩ := h.recv
  have hqueue : moved .got (sr.io ++ [⟨.sent, (sr.toFd.read n).1⟩])
      = moved .sent (sr.io ++ [⟨.sent, (sr.toFd.read n).1⟩]) ++ (sr.toFd.read n).2.contents := by
    rw [ByteQueue.contents_read, ByteQueue.read_fst]
    simp [h.queue, List.append_assoc]
  refine ⟨h.safe.append ⟨_, hqueue.symm⟩ ?_, hqueue, by simpa [StreamRelay.sendOut] using h.unclosed,
    ⟨r, F, hrecv, by simpa [StreamRelay.sendOut] using hasm, hstall⟩, h.ended⟩
  simpa using (h.safe sr.io (List.prefix_refl _)).2

theorem kept_sendOut (sr : StreamRelay) (n : Nat) : sr.Kept (sr.sendOut n) := by
  refine ⟨rfl, rfl, rfl, rfl, rfl, rfl, ?_, rfl, ?_, ?_⟩ <;> simp [sendOut]

/-- What `try_drain_to_fd` has done. Where it moved nothing, the queue is as it was. Where it moved
    something, or there was something to move, it used an answer if it had one. -/
structure DrainSpec (fed : List Frame) (sr : StreamRelay) (answers : List SendAnswer) (d : Drainage) :
    Prop where
  sound : d.relay.Sound fed
  kept : sr.Kept d.relay
  stream : d.relay.stream = sr.stream
  streamEnded : d.relay.streamEnded = sr.streamEnded
  unmoved : d.sent = 0 → d.relay.toFd = sr.toFd
  answers_le : d.answers.length ≤ answers.length
  used : answers ≠ [] → 0 < sr.toFd.len ∨ 0 < d.sent → d.answers.length < answers.length
  none : answers = [] → d.sent = 0

theorem tryDrain_spec (answers : List SendAnswer) (h : sr.Sound fed) :
    DrainSpec fed sr answers (tryDrainToFd answers sr) := by
  induction answers generalizing sr with
  | nil => exact ⟨h, .refl sr, rfl, rfl, fun _ => rfl, Nat.le_refl _, by simp, fun _ => rfl⟩
  | cons answer answers ih =>
    by_cases hpeek : sr.toFd.peek streamRelayChunk = []
    · have heq : tryDrainToFd (answer :: answers) sr = ⟨sr, answer :: answers, 0, true⟩ := if_pos hpeek
      rw [heq]
      refine ⟨h, .refl sr, rfl, rfl, fun _ => rfl, Nat.le_refl _, fun _ hpos => ?_, nofun⟩
      rw [ByteQueue.peek_eq, List.take_eq_nil_iff, ByteQueue.contents_eq_nil_iff] at hpeek
      obtain hzero | hnil := hpeek
      · cases hzero
      · exact absurd hpos (by simp [hnil])
    · cases answer with
      | took n =>
        rw [tryDrainToFd, if_neg hpeek]
        by_cases hzero : min n (sr.toFd.peek streamRelayChunk).length = 0
        · rw [if_pos hzero]
          exact ⟨h, .refl sr, rfl, rfl, fun _ => rfl, by simp, fun _ _ => by simp, fun _ => rfl⟩
        · have hspec := ih (h.sendOut (min n (sr.toFd.peek streamRelayChunk).length))
          rw [if_neg hzero]
          exact ⟨hspec.sound, (sr.kept_sendOut _).trans hspec.kept, hspec.stream, hspec.streamEnded,
            fun hsum => absurd (Nat.add_eq_zero_iff.mp hsum).1 hzero, Nat.le_succ_of_le hspec.answers_le,
            fun _ _ => Nat.lt_succ_of_le hspec.answers_le, nofun⟩
      | intr =>
        have hspec := ih h
        rw [tryDrainToFd, if_neg hpeek]
        exact ⟨hspec.sound, hspec.kept, hspec.stream, hspec.streamEnded, hspec.unmoved,
          Nat.le_succ_of_le hspec.answers_le, fun _ _ => Nat.lt_succ_of_le hspec.answers_le, nofun⟩
      | again =>
        rw [tryDrainToFd, if_neg hpeek]
        exact ⟨h, .refl sr, rfl, rfl, fun _ => rfl, by simp, fun _ _ => by simp, fun _ => rfl⟩
      | failed =>
        rw [tryDrainToFd, if_neg hpeek]
        exact ⟨h, .refl sr, rfl, rfl, fun _ => rfl, by simp, fun _ _ => by simp, fun _ => rfl⟩

/-! ## The pump -/

/-- A stream with something to read is one whose relay has bytes waiting for the descriptor. -/
def Settled (sr : StreamRelay) : Prop := ring sr.stream ≠ [] → 0 < sr.toFd.len

/-- What `pump_stream_to_fd` has done. -/
structure PumpSpec (fed : List Frame) (sr : StreamRelay) (res : StreamRelay × StreamPump) : Prop where
  sound : res.1.Sound fed
  kept : sr.Kept res.1
  settled : res.2 = .goOn → res.1.Settled
  ended : res.2 = .ended → AtEnd res.1.stream ∧ res.1.toFd.contents = []

theorem pumpLoop_succ (fuel : Nat) (answers : List SendAnswer) (sr : StreamRelay) :
    pumpLoop (fuel + 1) answers sr =
      if (tryDrainToFd answers sr.tryFillFromStream.1).ok = false then
        ((tryDrainToFd answers sr.tryFillFromStream.1).relay, .broken)
      else if 0 < sr.tryFillFromStream.2
          ∨ 0 < (tryDrainToFd answers sr.tryFillFromStream.1).sent then
        pumpLoop fuel (tryDrainToFd answers sr.tryFillFromStream.1).answers
          (tryDrainToFd answers sr.tryFillFromStream.1).relay
      else if (tryDrainToFd answers sr.tryFillFromStream.1).relay.streamEnded
          ∧ (tryDrainToFd answers sr.tryFillFromStream.1).relay.toFd.len = 0 then
        ((tryDrainToFd answers sr.tryFillFromStream.1).relay, .ended)
      else ((tryDrainToFd answers sr.tryFillFromStream.1).relay, .goOn) := rfl

/-- A turn of the pump that is not followed by another. -/
theorem PumpSpec.last {answers : List SendAnswer} {fuel : Nat} (h : sr.Sound fed)
    (hlast : (tryDrainToFd answers sr.tryFillFromStream.1).ok = false
      ∨ sr.tryFillFromStream.2 = 0 ∧ (tryDrainToFd answers sr.tryFillFromStream.1).sent = 0) :
    PumpSpec fed sr (pumpLoop (fuel + 1) answers sr) := by
  have hfill := tryFill_spec h
  have hdrain := tryDrain_spec answers hfill.sound
  have hkept := hfill.kept.trans hdrain.kept
  rw [pumpLoop_succ]
  by_cases hok : (tryDrainToFd answers sr.tryFillFromStream.1).ok = false
  · rw [if_pos hok]
    exact ⟨hdrain.sound, hkept, nofun, nofun⟩
  · obtain ⟨hfilled, hsent⟩ := hlast.resolve_left hok
    have hsame := hdrain.unmoved hsent
    rw [if_neg hok, if_neg (by omega)]
    split
    · next hend =>
      exact ⟨hdrain.sound, hkept, nofun,
        fun _ => ⟨hdrain.sound.ended hend.1, (ByteQueue.contents_eq_nil_iff _).mpr hend.2⟩⟩
    · refine ⟨hdrain.sound, hkept, fun _ hring => ?_, nofun⟩
      dsimp only at hring ⊢
      rw [hdrain.stream] at hring
      have hfull := hfill.filled.resolve_right hring
      have hcap := sr.tryFillFromStream.1.toFd.cap_pos
      rw [ByteQueue.freeSpace] at hfull
      rw [hsame]
      omega

theorem PumpSpec.of_kept {s : StreamRelay} {res : StreamRelay × StreamPump} (hkept : sr.Kept s)
    (h : PumpSpec fed s res) : PumpSpec fed sr res :=
  ⟨h.sound, hkept.trans h.kept, h.settled, h.ended⟩

theorem Sound.tryFill_filled (h : sr.Sound fed) (hfilled : sr.Filled) :
    sr.tryFillFromStream.2 = 0 := by
  unfold tryFillFromStream
  split
  · rfl
  · rw [fillLoop]
    by_cases hroom : sr.toFd.freeSpace = 0
    · rw [if_pos hroom]
    · have hnil := hfilled.resolve_left hroom
      have hchunk : streamRelayChunk = 16384 := rfl
      have hpos : 0 < min sr.toFd.freeSpace streamRelayChunk := by omega
      rw [if_neg hroom]
      obtain ⟨_, heq⟩ | ⟨_, heq⟩ | ⟨hring, _⟩ := h.read_cases hpos
      · rw [heq]
      · rw [heq]
      · exact absurd hnil hring

/-- The first turn may fill the queue without an answer to drain it with; the second moves nothing
    then. Every other turn that goes on has used an answer. -/
theorem pumpLoop_spec (fuel : Nat) (answers : List SendAnswer) (h : sr.Sound fed)
    (hfuel : answers.length + 2 ≤ fuel) : PumpSpec fed sr (pumpLoop fuel answers sr) := by
  induction fuel generalizing sr answers with
  | zero => exact absurd hfuel (Nat.not_succ_le_zero _)
  | succ fuel ih =>
    by_cases hlast : (tryDrainToFd answers sr.tryFillFromStream.1).ok = false
      ∨ sr.tryFillFromStream.2 = 0 ∧ (tryDrainToFd answers sr.tryFillFromStream.1).sent = 0
    · exact .last h hlast
    · have hfill := tryFill_spec h
      have hdrain := tryDrain_spec answers hfill.sound
      have hkept := hfill.kept.trans hdrain.kept
      obtain ⟨hok, hmore⟩ := not_or.mp hlast
      have hgo : 0 < sr.tryFillFromStream.2
          ∨ 0 < (tryDrainToFd answers sr.tryFillFromStream.1).sent := by omega
      rw [pumpLoop_succ, if_neg hok, if_pos hgo]
      refine .of_kept hkept ?_
      by_cases hnone : answers = []
      · subst hnone
        have hsent := hdrain.none rfl
        have hrest := List.length_eq_zero_iff.mp (Nat.le_zero.mp hdrain.answers_le)
        have hfilled : (tryDrainToFd [] sr.tryFillFromStream.1).relay.Filled := by
          rw [Filled, hdrain.unmoved hsent, hdrain.stream]
          exact hfill.filled
        obtain ⟨fuel, rfl⟩ : ∃ n, fuel = n + 1 := ⟨fuel - 1, by omega⟩
        rw [hrest]
        have hagain := tryFill_spec hdrain.sound
        exact .last hdrain.sound
          (.inr ⟨hdrain.sound.tryFill_filled hfilled, (tryDrain_spec [] hagain.sound).none rfl⟩)
      · have hused := hdrain.used hnone (hgo.imp hfill.holds id)
        exact ih _ hdrain.sound (by omega)

theorem pump_spec (answers : List SendAnswer) (h : sr.Sound fed) :
    PumpSpec fed sr (sr.pumpStreamToFd answers) :=
  pumpLoop_spec _ answers h (Nat.le_refl _)

end StreamRelay

end Cloak
