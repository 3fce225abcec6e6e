import Mathlib.Tactic.Tauto
import Cloak.Mux.Stream

set_option autoImplicit false

/-! # When a stream reads as ended

`cloak_stream_read` answers `-1` once the receive queue is closed and drained. A closing frame closes
the queue when its turn comes, which may be during a later read. A frame that is refused closes
nothing. So whether a stream that is fed no more will ever read as ended is decided by what it holds:
`Ends` is that question, reading does not change the answer, and once the queue is drained the next
read gives it. -/

namespace Cloak

open Lib

namespace OrderedRecv

/-- The end has been reached, or every frame from the next one up to a closing frame is in the
    heap. -/
def Ends (r : OrderedRecv) : Prop :=
  r.recvClosingSeen = true
    ∨ ∃ pf ∈ r.heap.toList, pf.closing ≠ closingNothing
      ∧ ∀ n, r.nextRecvSeq ≤ n → n < pf.seq → ∃ pf' ∈ r.heap.toList, pf'.seq = n

/-- What `cloak_stream_feed_frame` refuses: any frame after the end, an old or duplicate one, one
    larger than the ring, one it has no memory for, one above the cap of the heap. -/
def Refuses (r : OrderedRecv) (frame : Frame) (allocs : FeedAllocs) : Prop :=
  r.recvClosingSeen = true
    ∨ frame.seq < r.nextRecvSeq ∨ r.heapContainsSeq frame.seq = true
    ∨ r.recvBytes.len + r.recvBytes.freeSpace < frame.payload.length
    ∨ (0 < frame.payload.length ∧ allocs.payload = false)
    ∨ r.maxPendingFrames ≤ r.heap.size
    ∨ (r.heap.size = r.heapCap ∧ allocs.heap = false)

theorem accept_eq_none_iff (r : OrderedRecv) (frame : Frame) (allocs : FeedAllocs) :
    r.accept frame allocs = none ↔ r.Refuses frame allocs := by
  unfold accept Refuses
  split_ifs with h1 h2 h3 h4 h5 h6
  all_goals
    simp only [true_iff, false_iff]
    tauto

theorem feedFrame_error_iff (r : OrderedRecv) (frame : Frame) (allocs : FeedAllocs) :
    (r.feedFrame frame allocs).2 = .error ↔ r.Refuses frame allocs := by
  rw [← accept_eq_none_iff]
  rcases r.feedFrame_cases frame allocs with heq | ⟨r', hacc, _, hne⟩
  · rw [heq]
    unfold feedFrame at heq
    split at heq
    · next hnone => exact ⟨fun _ => hnone, fun _ => rfl⟩
    · have hres := congrArg Prod.snd heq
      dsimp only at hres
      split at hres <;> cases hres
  · rw [hacc]
    exact ⟨fun h => absurd h hne, fun h => by cases h⟩

/-- Delivering the next frame brings the end no nearer and no farther. -/
theorem ends_deliverHead (r : OrderedRecv) (h : 0 < r.heap.size)
    (hseq : r.heap[0].seq = r.nextRecvSeq) (hdata : r.heap[0].closing = closingNothing) :
    (r.deliverHead h hseq).Ends ↔ r.Ends := by
  have hperm := heapPop_perm PendingFrame.seq r.heap h
  have hmem : ∀ pf, pf ∈ r.heap.toList ↔ pf = r.heap[0]
      ∨ pf ∈ (heapPop PendingFrame.seq r.heap h).toList := by
    intro pf
    rw [← hperm.mem_iff, List.mem_cons]
  constructor
  · rintro (hseen | ⟨pf, hpf, hclosing, hrun⟩)
    · exact Or.inl hseen
    · refine Or.inr ⟨pf, (hmem pf).mpr (Or.inr hpf), hclosing, fun n hle hlt => ?_⟩
      by_cases heq : n = r.nextRecvSeq
      · exact ⟨r.heap[0], r.head_mem h, hseq.trans heq.symm⟩
      · have hle' : r.nextRecvSeq + 1 ≤ n := by omega
        obtain ⟨pf', hpf', heq'⟩ := hrun n hle' hlt
        exact ⟨pf', (hmem pf').mpr (Or.inr hpf'), heq'⟩
  · rintro (hseen | ⟨pf, hpf, hclosing, hrun⟩)
    · exact Or.inl hseen
    · rcases (hmem pf).mp hpf with rfl | hpf
      · exact absurd hdata hclosing
      · refine Or.inr ⟨pf, hpf, hclosing, fun n hle hlt => ?_⟩
        have hlt' : r.nextRecvSeq < n := hle
        obtain ⟨pf', hpf', heq⟩ := hrun n (Nat.le_of_lt hlt') hlt
        rcases (hmem pf').mp hpf' with rfl | hpf'
        · omega
        · exact ⟨pf', hpf', heq⟩

theorem ends_closeHead (r : OrderedRecv) (h : 0 < r.heap.size)
    (hseq : r.heap[0].seq = r.nextRecvSeq) (hclosing : r.heap[0].closing ≠ closingNothing) :
    r.Ends := by
  refine Or.inr ⟨r.heap[0], r.head_mem h, hclosing, fun n hle hlt => ?_⟩
  omega

/-- Draining the heap does not change whether the stream ends. -/
theorem ends_tryDrain (fuel : Nat) (r : OrderedRecv) : (tryDrain fuel r).1.Ends ↔ r.Ends := by
  refine tryDrain_induction (P := fun r' => r'.Ends ↔ r.Ends) ?_ ?_ fuel r Iff.rfl
  · intro r' h hseq hr hdata _
    rw [ends_deliverHead r' h hseq hdata, hr]
  · intro r' h hseq hr hclosing
    exact ⟨fun _ => hr.mp (r'.ends_closeHead h hseq hclosing), fun _ => Or.inl rfl⟩

theorem ends_read (r : OrderedRecv) (outCap : Nat) : (r.read outCap).1.Ends ↔ r.Ends := by
  obtain ⟨_, _, heq⟩ | ⟨_, _, heq⟩ | ⟨_, heq⟩ := r.read_cases outCap
  · rw [heq]
  · rw [heq]
  · rw [heq, ends_tryDrain]
    rfl

/-- A drain that comes to a closing frame says so. -/
theorem tryDrain_true {fuel : Nat} {r : OrderedRecv} (h : (tryDrain fuel r).2 = true) :
    (tryDrain fuel r).1.recvClosingSeen = true := by
  induction fuel generalizing r with
  | zero => cases h
  | succ fuel ih =>
    rw [tryDrain] at h ⊢
    split at h
    · next hsize =>
      rw [dif_pos hsize]
      split at h
      · next hseq =>
        rw [dif_pos hseq]
        split at h
        · next hclosing =>
          rw [if_pos hclosing]
          rfl
        · next hclosing =>
          rw [if_neg hclosing]
          split at h
          · cases h
          · next hfree =>
            rw [if_neg hfree]
            exact ih h
      · cases h
    · cases h

/-- A frame that closes the stream leaves it ended. -/
theorem ends_of_closed {r : OrderedRecv} {frame : Frame} {allocs : FeedAllocs}
    (h : (r.feedFrame frame allocs).2 = .closed) : (r.feedFrame frame allocs).1.Ends := by
  unfold feedFrame at h ⊢
  split at h
  · cases h
  · next r' hacc =>
    dsimp only at h ⊢
    split at h
    · next hdrain => exact Or.inl (tryDrain_true hdrain)
    · cases h

/-- Of a drained stream the next read tells whether it ends. -/
theorem read_eof_iff {r : OrderedRecv} (hstall : r.NoStall) (hempty : r.recvBytes.contents = [])
    (outCap : Nat) : (r.read outCap).2 = .eof ↔ r.Ends := by
  have hseen : r.Ends ↔ r.recvClosingSeen = true := by
    refine ⟨fun hends => ?_, Or.inl⟩
    rcases hends with hseen | ⟨pf, hpf, _, hrun⟩
    · exact hseen
    · -- the next frame would be in the heap, hence at its head
      exfalso
      have hnext : ∃ pf' ∈ r.heap.toList, pf'.seq = r.nextRecvSeq := by
        rcases Nat.lt_or_eq_of_le (r.next_le pf hpf) with hlt | heq
        · exact hrun r.nextRecvSeq (Nat.le_refl _) hlt
        · exact ⟨pf, hpf, heq.symm⟩
      obtain ⟨pf', hpf', hseq'⟩ := hnext
      have hsize : 0 < r.heap.size := Array.size_pos_iff.mpr fun hnil => by
        rw [hnil] at hpf'
        cases hpf'
      have hmin := r.heap_ordered.root_le_of_mem hsize (Array.mem_toList_iff.mp hpf')
      have hge := r.next_le _ (r.head_mem hsize)
      exact hstall hempty hsize (by omega)
  rw [hseen, ← r.closed_eq]
  obtain ⟨_, heof, heq⟩ | ⟨_, heof, heq⟩ | ⟨hne, _⟩ := r.read_cases outCap
  · rw [heq]
    exact ⟨fun _ => ((r.recvBytes.isEof_iff).mp heof).1, fun _ => rfl⟩
  · rw [heq]
    refine ⟨fun hc => absurd hc (by simp), fun hclosed => ?_⟩
    rw [(r.recvBytes.isEof_iff).mpr ⟨hclosed, hempty⟩] at heof
    cases heof
  · rw [hempty, List.take_nil] at hne
    exact absurd rfl hne

end OrderedRecv

namespace UnorderedRecv

/-- What `feed_frame_unordered` refuses: a datagram larger than the whole queue. -/
def Refuses (r : UnorderedRecv) (frame : Frame) : Prop :=
  r.recvClosingSeen = false ∧ frame.closing = closingNothing ∧ r.recvMsgs.closed = false
    ∧ (r.recvMsgs.cap - msgQueueLenPrefix < frame.payload.length
      ∨ 0xffffffff < frame.payload.length)

/-- The queue is closed once a closing frame has come. -/
def Tidy (r : UnorderedRecv) : Prop := r.recvClosingSeen = true → r.recvMsgs.closed = true

theorem write_tooLarge_iff (q : MsgQueue) (msg : List UInt8) : (q.write msg).2 = .tooLarge
    ↔ q.closed = false
      ∧ (q.cap - msgQueueLenPrefix < msg.length ∨ 0xffffffff < msg.length) := by
  unfold MsgQueue.write
  split_ifs with h1 h2 h3
  all_goals simp_all

/-- A datagram is refused, or taken or dropped without touching the end, or the stream is closed. -/
theorem feedFrame_cases (r : UnorderedRecv) (frame : Frame) :
    (r.Refuses frame ∧ r.feedFrame frame = (r, .error))
      ∨ (¬ r.Refuses frame ∧ (r.feedFrame frame).2 = .ok
        ∧ (r.feedFrame frame).1.recvClosingSeen = r.recvClosingSeen
        ∧ (r.feedFrame frame).1.recvMsgs.closed = r.recvMsgs.closed)
      ∨ (¬ r.Refuses frame ∧ (r.feedFrame frame).2 = .closed
        ∧ (r.recvClosingSeen = true ∧ (r.feedFrame frame).1 = r
          ∨ (r.feedFrame frame).1.recvMsgs.closed = true)) := by
  unfold feedFrame
  split
  · next hseen =>
    have hno : ¬ r.Refuses frame := fun hr => Bool.false_ne_true (hr.1.symm.trans hseen)
    exact Or.inr (Or.inr ⟨hno, rfl, Or.inl ⟨hseen, rfl⟩⟩)
  · next hseen =>
    split
    · next hclosing => exact Or.inr (Or.inr ⟨fun hr => hclosing hr.2.1, rfl, Or.inr rfl⟩)
    · next hclosing =>
      have hclosed := r.recvMsgs.closed_write frame.payload
      have hiff : r.Refuses frame ↔ (r.recvMsgs.write frame.payload).2 = .tooLarge := by
        rw [write_tooLarge_iff, Refuses]
        simp only [Bool.eq_false_iff.mpr hseen, not_not.mp hclosing, true_and]
      rw [hiff]
      cases hw : r.recvMsgs.write frame.payload with
      | mk q res =>
        rw [hw] at hclosed
        cases res with
        | tooLarge => exact Or.inl ⟨rfl, rfl⟩
        | ok => exact Or.inr (Or.inl ⟨by simp, rfl, rfl, hclosed⟩)
        | full => exact Or.inr (Or.inl ⟨by simp, rfl, rfl, rfl⟩)
        | closed => exact Or.inr (Or.inl ⟨by simp, rfl, rfl, rfl⟩)

end UnorderedRecv

namespace Recv

/-- What a receive side refuses. -/
def Refuses (frame : Frame) (allocs : FeedAllocs) : Recv → Prop
  | .ordered r => r.Refuses frame allocs
  | .unordered r => r.Refuses frame

/-- Whether a receive side that is fed no more will read as ended. -/
def Ends : Recv → Prop
  | .ordered r => r.Ends
  | .unordered r => r.recvMsgs.closed = true

/-- Nothing is left to read. -/
def Drained : Recv → Prop
  | .ordered r => r.recvBytes.contents = []
  | .unordered r => r.recvMsgs.count = 0

instance (recv : Recv) : Decidable recv.Drained :=
  match recv with
  | .ordered r => inferInstanceAs (Decidable (r.recvBytes.contents = []))
  | .unordered r => inferInstanceAs (Decidable (r.recvMsgs.count = 0))

/-- What every receive side keeps. -/
def Tidy : Recv → Prop
  | .ordered r => r.NoStall
  | .unordered r => r.Tidy

end Recv

namespace Stream

theorem recv_read_ordered {s : Stream} {r : OrderedRecv} (h : s.recv = .ordered r) (outCap : Nat) :
    (s.read outCap).1.recv = .ordered (r.read outCap).1
      ∧ (s.read outCap).2 = (r.read outCap).2 := by
  simp only [read, h, and_self]

theorem recv_read_unordered {s : Stream} {r : UnorderedRecv} (h : s.recv = .unordered r)
    (outCap : Nat) : (s.read outCap).1.recv = .unordered (r.read outCap).1
      ∧ (s.read outCap).2 = (r.read outCap).2 := by
  simp only [read, h, and_self]

/-- A read of an unordered stream takes a message or nothing, and closes nothing. -/
theorem closed_read_unordered (r : UnorderedRecv) (outCap : Nat) :
    (r.read outCap).1.recvClosingSeen = r.recvClosingSeen
      ∧ (r.read outCap).1.recvMsgs.closed = r.recvMsgs.closed := by
  have hclosed := r.recvMsgs.closed_read outCap
  unfold UnorderedRecv.read
  split
  · exact ⟨rfl, rfl⟩
  · exact ⟨rfl, rfl⟩
  · next heq =>
    rw [heq] at hclosed
    exact ⟨rfl, hclosed⟩

theorem ends_read (s : Stream) (outCap : Nat) :
    (s.read outCap).1.recv.Ends ↔ s.recv.Ends := by
  cases hrecv : s.recv with
  | ordered r =>
    rw [(recv_read_ordered hrecv outCap).1]
    exact r.ends_read outCap
  | unordered r =>
    rw [(recv_read_unordered hrecv outCap).1, Recv.Ends, Recv.Ends,
      (closed_read_unordered r outCap).2]

theorem tidy_read {s : Stream} (h : s.recv.Tidy) (outCap : Nat) : (s.read outCap).1.recv.Tidy := by
  cases hrecv : s.recv with
  | ordered r =>
    rw [hrecv] at h
    rw [(recv_read_ordered hrecv outCap).1]
    exact r.read_noStall outCap h
  | unordered r =>
    rw [hrecv] at h
    rw [(recv_read_unordered hrecv outCap).1]
    obtain ⟨hseen, hclosed⟩ := closed_read_unordered r outCap
    intro hset
    rw [hclosed]
    exact h (hseen ▸ hset)

theorem tidy_feedFrame {s : Stream} (h : s.recv.Tidy) (frame : Frame) (allocs : FeedAllocs) :
    (s.feedFrame frame allocs).1.recv.Tidy := by
  cases hrecv : s.recv with
  | ordered r =>
    rw [hrecv] at h
    simp only [feedFrame, hrecv]
    exact r.feedFrame_noStall frame allocs h
  | unordered r =>
    rw [hrecv] at h
    simp only [feedFrame, hrecv]
    change (r.feedFrame frame).1.Tidy
    rcases r.feedFrame_cases frame with ⟨_, heq⟩ | ⟨_, _, hseen, hclosed⟩ | ⟨_, _, ⟨_, heq⟩ | hclosed⟩
    · rw [heq]
      exact h
    · intro hset
      rw [hclosed]
      exact h (hseen ▸ hset)
    · rw [heq]
      exact h
    · exact fun _ => hclosed

/-- What a frame that retires the stream leaves behind: a refused frame leaves the stream as it was,
    a closing frame leaves it ended. -/
theorem ends_of_retiring {s : Stream} (h : s.recv.Tidy) {frame : Frame} {allocs : FeedAllocs}
    (hret : (s.feedFrame frame allocs).2 ≠ .ok) :
    (s.feedFrame frame allocs).1.recv.Ends ↔ ¬ s.recv.Refuses frame allocs ∨ s.recv.Ends := by
  cases hrecv : s.recv with
  | ordered r =>
    simp only [feedFrame, hrecv] at hret ⊢
    change (r.feedFrame frame allocs).1.Ends ↔ ¬ r.Refuses frame allocs ∨ r.Ends
    rw [← r.feedFrame_error_iff]
    cases hres : (r.feedFrame frame allocs).2 with
    | ok => exact absurd hres hret
    | closed => exact ⟨fun _ => Or.inl (by simp), fun _ => OrderedRecv.ends_of_closed hres⟩
    | error =>
      rcases r.feedFrame_cases frame allocs with heq | ⟨_, _, _, hne⟩
      · rw [heq]
        simp
      · exact absurd hres hne
  | unordered r =>
    rw [hrecv] at h
    simp only [feedFrame, hrecv] at hret ⊢
    change (r.feedFrame frame).1.recvMsgs.closed = true ↔ ¬ r.Refuses frame
      ∨ r.recvMsgs.closed = true
    rcases r.feedFrame_cases frame with ⟨hr, heq⟩ | ⟨_, hok, _⟩ | ⟨hr, _, hend⟩
    · rw [heq]
      simp [hr]
    · exact absurd hok hret
    · refine ⟨fun _ => Or.inl hr, fun _ => ?_⟩
      rcases hend with ⟨hseen, heq⟩ | hclosed
      · rw [heq]
        exact h hseen
      · exact hclosed

/-- Of a drained stream the next read tells whether it ends. -/
theorem read_eof_iff {s : Stream} (h : s.recv.Tidy) (hdrained : s.recv.Drained) (outCap : Nat) :
    (s.read outCap).2 = .eof ↔ s.recv.Ends := by
  cases hrecv : s.recv with
  | ordered r =>
    rw [hrecv] at h hdrained
    rw [(recv_read_ordered hrecv outCap).2]
    exact OrderedRecv.read_eof_iff h hdrained outCap
  | unordered r =>
    rw [hrecv] at hdrained
    have hzero : r.recvMsgs.count = 0 := hdrained
    have hempty : r.recvMsgs.read outCap = (.empty, r.recvMsgs) := by
      simp only [MsgQueue.read, MsgQueue.peekLen, hzero, if_true]
    rw [(recv_read_unordered hrecv outCap).2]
    simp only [UnorderedRecv.read, hempty, MsgQueue.isEof, hzero, Recv.Ends]
    cases r.recvMsgs.closed <;> simp

theorem tidy_init {id : UInt32} {o : Obfuscator} {maxOnWireSize recvCapacity maxPending : Nat}
    {ordering : SessionOrdering} {s : Stream}
    (h : init id o maxOnWireSize recvCapacity maxPending ordering = .ok s) : s.recv.Tidy := by
  unfold init at h
  split at h
  · cases h
  · split at h
    · cases h
    · split at h
      · cases h
      · split at h
        · cases h
        · next recv hrecv =>
          cases h
          unfold initRecv at hrecv
          split at hrecv
          · obtain ⟨q, _, rfl⟩ := Option.map_eq_some_iff.mp hrecv
            exact fun hc => by cases hc
          · split at hrecv
            · cases hrecv
            · obtain rfl := Option.some.inj hrecv
              exact OrderedRecv.fresh_noStall _ _ _

end Stream

end Cloak
