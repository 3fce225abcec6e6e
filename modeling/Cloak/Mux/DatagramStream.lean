import Cloak.Lib.Run
import Cloak.Mux.Datagrams
import Cloak.Mux.OrderedDelivery

set_option autoImplicit false

/-! # An unordered stream over a run (`stream.c`, `msgqueue.c`)

Frames, reads and writes on one unordered stream, in any order. `DatagramStream` keeps the stream and
the record of the calls: what was fed, which payloads made the queue longer, which data frames were
waved through without that, and what the reads answered.

A read that answers 0 may have found nothing or an empty datagram. So the record takes a datagram for
returned when the queue gets shorter, and `observed` says what a caller who sees only the answers can
tell of it. -/

namespace Cloak

open Lib

namespace UnorderedRecv

variable {r : UnorderedRecv} {ms : List (List UInt8)} {n : Nat}

/-- The datagram fits the empty queue behind its prefix. -/
def Fits (r : UnorderedRecv) (frame : Frame) : Prop :=
  frame.payload.length ≤ r.recvMsgs.cap - msgQueueLenPrefix ∧ frame.payload.length ≤ 0xffffffff

/-- The queue has no place for the datagram now. -/
def LacksRoom (r : UnorderedRecv) (frame : Frame) : Prop :=
  r.recvMsgs.cap - r.recvMsgs.len < frame.payload.length + msgQueueLenPrefix

/-- What `feed_frame_unordered` does with a frame: the state behind it, its answer, and the datagrams
    that are queued then. -/
inductive Fed (r : UnorderedRecv) (frame : Frame) (ms : List (List UInt8)) :
    UnorderedRecv × FeedResult → List (List UInt8) → Prop
  | late (hseen : r.recvClosingSeen = true) : Fed r frame ms (r, .closed) ms
  | close (hopen : r.recvClosingSeen = false) (hclosing : frame.closing ≠ closingNothing) :
      Fed r frame ms ({ r with recvClosingSeen := true, recvMsgs := r.recvMsgs.close }, .closed) ms
  | tooLarge (hopen : r.recvClosingSeen = false) (hdata : frame.closing = closingNothing)
      (hlarge : ¬ r.Fits frame) : Fed r frame ms (r, .error) ms
  | drop (hopen : r.recvClosingSeen = false) (hdata : frame.closing = closingNothing)
      (hfits : r.Fits frame) (hfull : r.LacksRoom frame) :
      Fed r frame ms ({ r with recvDroppedDatagrams := r.recvDroppedDatagrams + 1 }, .ok) ms
  | accept (hopen : r.recvClosingSeen = false) (hdata : frame.closing = closingNothing)
      (hfits : r.Fits frame) (hroom : ¬ r.LacksRoom frame) :
      Fed r frame ms ({ r with recvMsgs := (r.recvMsgs.write frame.payload).1 }, .ok)
        (ms ++ [frame.payload])

/-- The queue's three answers to a datagram while it is open. -/
theorem Holds.write_cases (hr : r.Holds ms) (frame : Frame) (hopen : r.recvClosingSeen = false) :
    (¬ r.Fits frame ∧ r.recvMsgs.write frame.payload = (r.recvMsgs, .tooLarge))
      ∨ (r.Fits frame ∧ r.LacksRoom frame
        ∧ r.recvMsgs.write frame.payload = (r.recvMsgs, .full))
      ∨ (r.Fits frame ∧ ¬ r.LacksRoom frame ∧ (r.recvMsgs.write frame.payload).2 = .ok) := by
  have hqueue : ¬ r.recvMsgs.closed = true := by simp [hr.closed, hopen]
  unfold Fits LacksRoom
  by_cases hfits : frame.payload.length ≤ r.recvMsgs.cap - msgQueueLenPrefix
      ∧ frame.payload.length ≤ 0xffffffff
  · by_cases hfull : r.recvMsgs.cap - r.recvMsgs.len < frame.payload.length + msgQueueLenPrefix
    · refine .inr (.inl ⟨hfits, hfull, ?_⟩)
      rw [MsgQueue.write, if_neg hqueue, if_neg (by omega), dif_pos hfull]
    · refine .inr (.inr ⟨hfits, hfull, ?_⟩)
      rw [r.recvMsgs.write_ok_iff]
      exact ⟨by simpa using hqueue, hfits.2, by omega⟩
  · refine .inl ⟨hfits, ?_⟩
    rw [MsgQueue.write, if_neg hqueue, if_pos (by omega)]

theorem Holds.fed (hr : r.Holds ms) (frame : Frame) :
    ∃ ms', Fed r frame ms (r.feedFrame frame) ms' ∧ (r.feedFrame frame).1.Holds ms' := by
  have hholds := hr.feedFrame frame
  by_cases hseen : r.recvClosingSeen = true
  · have hno : ¬ r.Accepts frame := by
      rintro ⟨-, hok⟩
      have hopen := ((r.recvMsgs.write_ok_iff _).mp hok).1
      rw [hr.closed, hseen] at hopen
      cases hopen
    rw [if_neg hno] at hholds
    refine ⟨ms, ?_, hholds⟩
    rw [UnorderedRecv.feedFrame, if_pos hseen]
    exact .late hseen
  · have hopen : r.recvClosingSeen = false := by simpa using hseen
    by_cases hclosing : frame.closing = closingNothing
    · rcases hr.write_cases frame hopen with ⟨hlarge, heq⟩ | ⟨hfits, hfull, heq⟩ | ⟨hfits, hroom, hok⟩
      · rw [if_neg (by simp [Accepts, heq])] at hholds
        refine ⟨ms, ?_, hholds⟩
        rw [UnorderedRecv.feedFrame, if_neg hseen, if_neg (not_not.mpr hclosing), heq]
        exact .tooLarge hopen hclosing hlarge
      · rw [if_neg (by simp [Accepts, heq])] at hholds
        refine ⟨ms, ?_, hholds⟩
        rw [UnorderedRecv.feedFrame, if_neg hseen, if_neg (not_not.mpr hclosing), heq]
        exact .drop hopen hclosing hfits hfull
      · rw [if_pos ⟨hclosing, hok⟩] at hholds
        refine ⟨_, ?_, hholds⟩
        have hwrite : r.recvMsgs.write frame.payload
            = ((r.recvMsgs.write frame.payload).1, .ok) := Prod.ext rfl hok
        rw [UnorderedRecv.feedFrame, if_neg hseen, if_neg (not_not.mpr hclosing), hwrite]
        exact .accept hopen hclosing hfits hroom
    · rw [if_neg fun hacc => hclosing hacc.1] at hholds
      refine ⟨ms, ?_, hholds⟩
      rw [UnorderedRecv.feedFrame, if_neg hseen, if_pos hclosing]
      exact .close hopen hclosing

end UnorderedRecv

/-! ## Runs -/

/-- A call on a stream: a frame that came in, a read, or a write with what it meets. -/
inductive DatagramCall where
  | feed (frame : Frame) (allocs : FeedAllocs)
  | read (outCap : Nat)
  | write (bs : List UInt8) (env : Nat → FrameEnv)

/-- A stream and the record of the calls on it. -/
structure DatagramStream where
  stream : Stream
  fed : List Frame
  accepted : List (List UInt8)
  dropped : List Frame
  answers : List ReadResult
  returned : List (List UInt8)
  sent : List SealedFrame

/-- The bytes an answer carries. -/
def ReadResult.payloads : ReadResult → List (List UInt8)
  | .bytes bs => [bs]
  | _ => []

/-- `cloak_msgqueue_count` of the stream's queue. -/
def Stream.queuedCount (s : Stream) : Nat :=
  match s.recv with
  | .unordered r => r.recvMsgs.count
  | .ordered _ => 0

/-- `recv_dropped_datagrams`. -/
def Stream.droppedCount (s : Stream) : Nat :=
  match s.recv with
  | .unordered r => r.recvDroppedDatagrams
  | .ordered _ => 0

namespace DatagramStream

/-- A stream nothing has been done with. -/
def fresh (s : Stream) : DatagramStream := ⟨s, [], [], [], [], [], []⟩

/-- A frame is fed. It has been accepted if the queue is longer; a data frame that was not, and that the
    stream let pass, has been dropped. -/
def feed (d : DatagramStream) (frame : Frame) (allocs : FeedAllocs) : DatagramStream :=
  { d with
    stream := (d.stream.feedFrame frame allocs).1
    fed := d.fed ++ [frame]
    accepted :=
      if d.stream.queuedCount < (d.stream.feedFrame frame allocs).1.queuedCount then
        d.accepted ++ [frame.payload]
      else d.accepted
    dropped :=
      if frame.closing = closingNothing ∧ (d.stream.feedFrame frame allocs).2 = .ok
          ∧ (d.stream.feedFrame frame allocs).1.queuedCount ≤ d.stream.queuedCount then
        d.dropped ++ [frame]
      else d.dropped }

/-- A read. It has returned a datagram if the queue is shorter. -/
def read (d : DatagramStream) (outCap : Nat) : DatagramStream :=
  { d with
    stream := (d.stream.read outCap).1
    answers := d.answers ++ [(d.stream.read outCap).2]
    returned :=
      if (d.stream.read outCap).1.queuedCount < d.stream.queuedCount then
        d.returned ++ (d.stream.read outCap).2.payloads
      else d.returned }

/-- A write. -/
def write (evp : Evp) (d : DatagramStream) (bs : List UInt8) (env : Nat → FrameEnv) :
    DatagramStream :=
  { d with
    stream := (d.stream.write evp bs env).1
    sent := d.sent ++ (d.stream.write evp bs env).2.1 }

def step (evp : Evp) (d : DatagramStream) : DatagramCall → DatagramStream
  | .feed frame allocs => d.feed frame allocs
  | .read outCap => d.read outCap
  | .write bs env => d.write evp bs env

variable {evp : Evp} {d : DatagramStream} {r : UnorderedRecv} {ms : List (List UInt8)}

/-- The receive side is `r`, it holds the datagrams `ms`, and the record agrees. -/
structure Inv (d : DatagramStream) (r : UnorderedRecv) (ms : List (List UInt8)) : Prop where
  recv : d.stream.recv = .unordered r
  holds : r.Holds ms
  order : d.accepted = d.returned ++ ms
  origin : d.accepted.Sublist ((d.fed.filter (·.closing = closingNothing)).map Frame.payload)
  seen : r.recvClosingSeen = true ↔ ∃ f ∈ d.fed, f.closing ≠ closingNothing
  counted : r.recvDroppedDatagrams = d.dropped.length
  observed : (d.answers.flatMap ReadResult.payloads).filter (· ≠ [])
    = d.returned.filter (· ≠ [])

theorem inv_fresh {s : Stream} (hrecv : s.recv = .unordered r) (hr : r.Holds [])
    (hopen : r.recvClosingSeen = false) (hdropped : r.recvDroppedDatagrams = 0) :
    (fresh s).Inv r [] :=
  ⟨hrecv, hr, rfl, List.Sublist.refl _, by simp [hopen, fresh], hdropped, rfl⟩

theorem Inv.queuedCount (h : d.Inv r ms) : d.stream.queuedCount = ms.length := by
  rw [Stream.queuedCount, h.recv]
  exact h.holds.msgs.count

theorem Inv.droppedCount (h : d.Inv r ms) : d.stream.droppedCount = d.dropped.length := by
  rw [Stream.droppedCount, h.recv]
  exact h.counted

theorem Inv.feedFrame (h : d.Inv r ms) (frame : Frame) (allocs : FeedAllocs) :
    d.stream.feedFrame frame allocs
      = ({ d.stream with recv := .unordered (r.feedFrame frame).1 }, (r.feedFrame frame).2) := by
  rw [Stream.feedFrame, h.recv]

theorem Inv.readStream (h : d.Inv r ms) (outCap : Nat) :
    d.stream.read outCap
      = ({ d.stream with recv := .unordered (r.read outCap).1 }, (r.read outCap).2) := by
  rw [Stream.read, h.recv]

/-- The record of a fed frame, in terms of what the queue held before and holds now. -/
theorem Inv.feed_eq (h : d.Inv r ms) (frame : Frame) (allocs : FeedAllocs)
    {ms' : List (List UInt8)} (hholds : (r.feedFrame frame).1.Holds ms') :
    d.feed frame allocs =
      { d with
        stream := { d.stream with recv := .unordered (r.feedFrame frame).1 }
        fed := d.fed ++ [frame]
        accepted := if ms.length < ms'.length then d.accepted ++ [frame.payload] else d.accepted
        dropped :=
          if frame.closing = closingNothing ∧ (r.feedFrame frame).2 = .ok ∧ ms'.length ≤ ms.length then
            d.dropped ++ [frame]
          else d.dropped } := by
  have hcount : ({ d.stream with recv := .unordered (r.feedFrame frame).1 } : Stream).queuedCount
      = ms'.length := hholds.msgs.count
  rw [DatagramStream.feed, h.feedFrame]
  simp only [h.queuedCount, hcount]

/-- One more frame keeps what was accepted a part of what came. -/
theorem Inv.origin_concat (h : d.Inv r ms) (frame : Frame) :
    d.accepted.Sublist (((d.fed ++ [frame]).filter (·.closing = closingNothing)).map Frame.payload) := by
  rw [List.filter_append, List.map_append]
  exact h.origin.trans (List.sublist_append_left _ _)

/-- A data frame does not close the stream. -/
theorem Inv.seen_concat (h : d.Inv r ms) {frame : Frame} (hdata : frame.closing = closingNothing) :
    r.recvClosingSeen = true ↔ ∃ f ∈ d.fed ++ [frame], f.closing ≠ closingNothing := by
  rw [h.seen]
  simp [or_and_right, exists_or, hdata]

/-- The frame is recorded with its fate. -/
theorem Inv.feed (h : d.Inv r ms) (frame : Frame) (allocs : FeedAllocs) :
    ∃ ms', UnorderedRecv.Fed r frame ms (r.feedFrame frame) ms'
      ∧ (d.feed frame allocs).Inv (r.feedFrame frame).1 ms' := by
  obtain ⟨ms', hfed, hholds⟩ := h.holds.fed frame
  refine ⟨ms', hfed, ?_⟩
  have horigin := h.origin_concat frame
  rw [h.feed_eq frame allocs hholds]
  generalize r.feedFrame frame = res at hfed hholds
  cases hfed with
  | late hseen =>
    rw [if_neg (Nat.lt_irrefl _), if_neg (by simp)]
    refine ⟨rfl, h.holds, h.order, horigin, ?_, h.counted, h.observed⟩
    obtain ⟨f, hf, hclosing⟩ := h.seen.mp hseen
    exact iff_of_true hseen ⟨f, List.mem_append_left _ hf, hclosing⟩
  | close hopen hclosing =>
    rw [if_neg (Nat.lt_irrefl _), if_neg (by simp)]
    refine ⟨rfl, hholds, h.order, horigin, ?_, h.counted, h.observed⟩
    exact iff_of_true rfl ⟨frame, by simp, hclosing⟩
  | tooLarge hopen hdata hlarge =>
    rw [if_neg (Nat.lt_irrefl _), if_neg (by simp)]
    exact ⟨rfl, h.holds, h.order, horigin, h.seen_concat hdata, h.counted, h.observed⟩
  | drop hopen hdata hfits hfull =>
    rw [if_neg (Nat.lt_irrefl _), if_pos ⟨hdata, rfl, Nat.le_refl _⟩]
    refine ⟨rfl, hholds, h.order, horigin, h.seen_concat hdata, ?_, h.observed⟩
    rw [List.length_append, ← h.counted]
    rfl
  | accept hopen hdata hfits hroom =>
    rw [if_pos (by simp), if_neg (by simp)]
    refine ⟨rfl, hholds, ?_, ?_, h.seen_concat hdata, h.counted, h.observed⟩
    · rw [h.order, List.append_assoc]
    · rw [List.filter_append, List.map_append]
      refine h.origin.append ?_
      simp [hdata]

/-- What a read answers and leaves. -/
theorem Inv.read_cases (h : d.Inv r ms) (outCap : Nat) :
    (ms = [] ∧ d.stream.read outCap = (d.stream, if r.recvClosingSeen then .eof else .bytes []))
      ∨ (∃ m rest, ms = m :: rest ∧ outCap < m.length
        ∧ d.stream.read outCap = (d.stream, .shortBuffer))
      ∨ ∃ m rest r', ms = m :: rest ∧ m.length ≤ outCap ∧ r'.Holds rest
        ∧ r'.recvClosingSeen = r.recvClosingSeen
        ∧ r'.recvDroppedDatagrams = r.recvDroppedDatagrams
        ∧ d.stream.read outCap = ({ d.stream with recv := .unordered r' }, .bytes m) := by
  have hread := h.readStream outCap
  have hself : ({ d.stream with recv := .unordered r } : Stream) = d.stream := by rw [← h.recv]
  cases ms with
  | nil =>
    rw [h.holds.read_nil, hself] at hread
    exact .inl ⟨rfl, hread⟩
  | cons m rest =>
    by_cases hshort : outCap < m.length
    · rw [h.holds.read_short hshort, hself] at hread
      exact .inr (.inl ⟨m, rest, rfl, hshort, hread⟩)
    · obtain ⟨hmsg, hrest, hseen⟩ := h.holds.read_msg (Nat.le_of_not_lt hshort)
      rw [hmsg] at hread
      refine .inr (.inr ⟨m, rest, _, rfl, Nat.le_of_not_lt hshort, hrest, hseen, ?_, hread⟩)
      unfold UnorderedRecv.read
      split <;> rfl

/-- A read hands out the oldest datagram whole, or nothing. -/
theorem Inv.read (h : d.Inv r ms) (outCap : Nat) :
    ∃ r', (d.read outCap).Inv r' (if ∀ m ∈ ms.head?, m.length ≤ outCap then ms.tail else ms) := by
  rcases h.read_cases outCap with ⟨rfl, heq⟩ | ⟨m, rest, rfl, hshort, heq⟩ |
    ⟨m, rest, r', rfl, hfit, hrest, hseen, hdropped, heq⟩
  · refine ⟨r, ?_⟩
    rw [DatagramStream.read, heq]
    simp only [Nat.lt_irrefl, if_false]
    refine ⟨h.recv, h.holds, h.order, h.origin, h.seen, h.counted, ?_⟩
    rw [← h.observed]
    split <;> simp [ReadResult.payloads]
  · refine ⟨r, ?_⟩
    rw [if_neg (by simpa using hshort), DatagramStream.read, heq]
    simp only [Nat.lt_irrefl, if_false]
    refine ⟨h.recv, h.holds, h.order, h.origin, h.seen, h.counted, ?_⟩
    rw [← h.observed]
    simp [ReadResult.payloads]
  · refine ⟨r', ?_⟩
    have hcount : ({ d.stream with recv := .unordered r' } : Stream).queuedCount = rest.length :=
      hrest.msgs.count
    rw [if_pos (by simpa using hfit), DatagramStream.read, heq]
    simp only [hcount, h.queuedCount, List.length_cons, Nat.lt_succ_self, if_true, List.tail_cons]
    refine ⟨rfl, hrest, ?_, h.origin, ?_, ?_, ?_⟩
    · simp only [ReadResult.payloads]
      rw [h.order, List.append_assoc, List.singleton_append]
    · rw [hseen]
      exact h.seen
    · rw [hdropped]
      exact h.counted
    · rw [List.flatMap_append, List.filter_append, List.filter_append, h.observed]
      simp

/-- Writing leaves the receive side alone. -/
theorem recv_write (evp : Evp) (s : Stream) (bs : List UInt8) (env : Nat → FrameEnv) :
    (s.write evp bs env).1.recv = s.recv := by
  unfold Stream.write
  split
  · rfl
  · split
    · rfl
    · exact (Stream.writeLoop_spec evp env bs.length s 0 bs (Nat.le_refl _)).recv

theorem Inv.write (h : d.Inv r ms) (evp : Evp) (bs : List UInt8) (env : Nat → FrameEnv) :
    (d.write evp bs env).Inv r ms :=
  ⟨(recv_write evp d.stream bs env).trans h.recv, h.holds, h.order, h.origin, h.seen, h.counted,
    h.observed⟩

theorem Inv.step (h : d.Inv r ms) (evp : Evp) (call : DatagramCall) :
    ∃ r' ms', (d.step evp call).Inv r' ms' := by
  cases call with
  | feed frame allocs =>
    obtain ⟨ms', -, hfed⟩ := h.feed frame allocs
    exact ⟨_, ms', hfed⟩
  | read outCap =>
    obtain ⟨r', hread⟩ := h.read outCap
    exact ⟨r', _, hread⟩
  | write bs env => exact ⟨r, ms, h.write evp bs env⟩

/-- One read for each queued datagram, and the queue is empty. -/
theorem Inv.drain (h : d.Inv r ms) (evp : Evp) {outCap : Nat} (hfit : ∀ m ∈ ms, m.length ≤ outCap) :
    (run (DatagramStream.step evp) d (List.replicate ms.length (.read outCap))).returned
      = d.accepted := by
  induction ms generalizing d r with
  | nil => exact (by simpa using h.order.symm)
  | cons m rest ih =>
    rw [List.forall_mem_cons] at hfit
    obtain ⟨r', hread⟩ := h.read outCap
    rw [if_pos (by simpa using hfit.1), List.tail_cons] at hread
    exact ih hread hfit.2

/-- A write that no frame can carry does nothing. -/
theorem write_long {s : Stream} (hrecv : s.recv = .unordered r) (evp : Evp) {bs : List UInt8}
    (hlong : s.maxPayloadPerFrame < bs.length) (env : Nat → FrameEnv) :
    (s.write evp bs env).1 = s ∧ (s.write evp bs env).2.1 = [] ∧ (s.write evp bs env).2.2 ≠ .ok := by
  have hunordered : s.isOrdered = false := by rw [Stream.isOrdered, hrecv]
  unfold Stream.write
  split
  · exact ⟨rfl, rfl, by simp⟩
  · rw [if_pos ⟨hunordered, hlong⟩]
    exact ⟨rfl, rfl, by simp⟩

/-- What holds of an unordered stream and its record, with `ms` in its queue. -/
structure Delivers (evp : Evp) (d : DatagramStream) (r : UnorderedRecv) (ms : List (List UInt8)) :
    Prop where
  recv : d.stream.recv = .unordered r
  queued : r.recvMsgs.Holds ms
  /-- What was accepted is what came, in order; it has been returned in order, or it is queued. -/
  arrival : d.accepted.Sublist ((d.fed.filter (·.closing = closingNothing)).map Frame.payload)
  order : d.accepted = d.returned ++ ms
  observed : (d.answers.flatMap ReadResult.payloads).filter (· ≠ []) = d.returned.filter (· ≠ [])
  /-- Reads with room for them return the rest. -/
  drained : ∀ outCap, (∀ m ∈ ms, m.length ≤ outCap) →
    (run (step evp) d (List.replicate ms.length (.read outCap))).returned = d.accepted
  /-- While no closing frame has come, a datagram that fits the queue is accepted if there is room for
      it now, and is counted if not. -/
  fed : ∀ frame allocs, frame.closing = closingNothing →
    (∀ f ∈ d.fed, f.closing = closingNothing) → r.Fits frame →
    (r.LacksRoom frame ∧ (d.feed frame allocs).accepted = d.accepted
        ∧ (d.feed frame allocs).stream.droppedCount = d.stream.droppedCount + 1)
      ∨ (¬ r.LacksRoom frame ∧ (d.feed frame allocs).accepted = d.accepted ++ [frame.payload]
        ∧ (d.feed frame allocs).stream.droppedCount = d.stream.droppedCount)
  /-- Any other one is refused, and the stream is as it was. -/
  refused : ∀ frame allocs, frame.closing = closingNothing →
    ((∃ f ∈ d.fed, f.closing ≠ closingNothing) ∨ ¬ r.Fits frame) →
    (d.stream.feedFrame frame allocs).1 = d.stream ∧ (d.stream.feedFrame frame allocs).2 ≠ .ok
  counted : d.stream.droppedCount = d.dropped.length
  short : ∀ outCap m rest, ms = m :: rest → outCap < m.length →
    d.stream.read outCap = (d.stream, .shortBuffer)
  eof : ∀ outCap, (d.stream.read outCap).2 = .eof →
    (∃ f ∈ d.fed, f.closing ≠ closingNothing) ∧ d.returned = d.accepted
  longWrite : ∀ bs env, d.stream.maxPayloadPerFrame < bs.length →
    (d.stream.write evp bs env).1 = d.stream ∧ (d.stream.write evp bs env).2.1 = []
      ∧ (d.stream.write evp bs env).2.2 ≠ .ok

theorem Inv.fed_open (h : d.Inv r ms) {frame : Frame} (allocs : FeedAllocs)
    (hdata : frame.closing = closingNothing) (hopen : ∀ f ∈ d.fed, f.closing = closingNothing)
    (hfits : r.Fits frame) :
    (r.LacksRoom frame ∧ (d.feed frame allocs).accepted = d.accepted
        ∧ (d.feed frame allocs).stream.droppedCount = d.stream.droppedCount + 1)
      ∨ (¬ r.LacksRoom frame ∧ (d.feed frame allocs).accepted = d.accepted ++ [frame.payload]
        ∧ (d.feed frame allocs).stream.droppedCount = d.stream.droppedCount) := by
  have hnot : ¬ r.recvClosingSeen = true := fun hseen => by
    obtain ⟨f, hf, hclosing⟩ := h.seen.mp hseen
    exact hclosing (hopen f hf)
  obtain ⟨ms', hfed, hholds⟩ := h.holds.fed frame
  have hcount : d.stream.droppedCount = r.recvDroppedDatagrams := h.droppedCount.trans h.counted.symm
  have hfeed := h.feed_eq frame allocs hholds
  have hafter : (d.feed frame allocs).stream.droppedCount
      = (r.feedFrame frame).1.recvDroppedDatagrams := by rw [hfeed]; rfl
  rw [hafter, hcount, hfeed]
  generalize r.feedFrame frame = res at hfed hholds
  cases hfed with
  | late hseen => exact absurd hseen hnot
  | close _ hclosing => exact absurd hdata hclosing
  | tooLarge _ _ hlarge => exact absurd hfits hlarge
  | drop _ _ _ hfull => exact .inl ⟨hfull, if_neg (Nat.lt_irrefl _), rfl⟩
  | accept _ _ _ hroom => exact .inr ⟨hroom, if_pos (by simp), rfl⟩

theorem Inv.fed_refused (h : d.Inv r ms) {frame : Frame} (allocs : FeedAllocs)
    (hdata : frame.closing = closingNothing)
    (hrefused : (∃ f ∈ d.fed, f.closing ≠ closingNothing) ∨ ¬ r.Fits frame) :
    (d.stream.feedFrame frame allocs).1 = d.stream ∧ (d.stream.feedFrame frame allocs).2 ≠ .ok := by
  have hself : ({ d.stream with recv := .unordered r } : Stream) = d.stream := by rw [← h.recv]
  obtain ⟨ms', hfed, -⟩ := h.holds.fed frame
  rw [← h.seen] at hrefused
  rw [h.feedFrame]
  generalize r.feedFrame frame = res at hfed
  cases hfed with
  | late hseen => exact ⟨hself, by simp⟩
  | close _ hclosing => exact absurd hdata hclosing
  | tooLarge hopen _ hlarge => exact ⟨hself, by simp⟩
  | drop hopen _ hfits => simp [hopen, hfits] at hrefused
  | accept hopen _ hfits => simp [hopen, hfits] at hrefused

theorem Inv.delivers (h : d.Inv r ms) (evp : Evp) : d.Delivers evp r ms where
  recv := h.recv
  queued := h.holds.msgs
  arrival := h.origin
  order := h.order
  observed := h.observed
  drained _ hfit := h.drain evp hfit
  fed _ allocs hdata hopen hfits := h.fed_open allocs hdata hopen hfits
  refused _ allocs hdata hrefused := h.fed_refused allocs hdata hrefused
  counted := h.droppedCount
  short outCap m rest hms hshort := by
    rcases h.read_cases outCap with ⟨hnil, -⟩ | ⟨_, _, _, _, heq⟩ | ⟨m', rest', _, hms', hfit, _⟩
    · rw [hms] at hnil
      cases hnil
    · exact heq
    · rw [hms] at hms'
      obtain ⟨rfl, -⟩ := List.cons.inj hms'
      omega
  eof outCap heof := by
    rcases h.read_cases outCap with ⟨rfl, heq⟩ | ⟨_, _, _, _, heq⟩ | ⟨_, _, _, _, _, _, _, _, heq⟩
    · rw [heq] at heof
      refine ⟨h.seen.mp ?_, by rw [h.order, List.append_nil]⟩
      by_contra hopen
      simp [hopen] at heof
    · rw [heq] at heof
      cases heof
    · rw [heq] at heof
      cases heof
  longWrite bs env hlong := write_long h.recv evp hlong env

theorem inv_init {id : UInt32} {o : Obfuscator} {maxOnWireSize recvCapacity maxPending : Nat}
    {st : Stream} (h : Stream.init id o maxOnWireSize recvCapacity maxPending .unordered = .ok st) :
    ∃ r, (fresh st).Inv r [] ∧ r.recvMsgs.cap = recvCapacity := by
  obtain ⟨_, _, r, hrecv, hr, hopen, hcap⟩ := Stream.init_unordered h
  refine ⟨r, inv_fresh hrecv hr hopen ?_, hcap⟩
  unfold Stream.init at h
  rw [if_neg (by simp)] at h
  split at h
  · cases h
  · split at h
    · cases h
    · split at h
      · cases h
      · next hinit =>
        cases h
        obtain ⟨q, -, heq⟩ := Option.map_eq_some_iff.mp hinit
        obtain rfl := Recv.unordered.inj (heq.trans hrecv)
        rfl

/-- Every run of calls on an unordered stream: what is accepted is returned whole and in order, and what
    is not is counted or refused. -/
theorem datagrams_delivered (evp : Evp) {id : UInt32} {o : Obfuscator}
    {maxOnWireSize recvCapacity maxPending : Nat} {st : Stream}
    (h : Stream.init id o maxOnWireSize recvCapacity maxPending .unordered = .ok st)
    (calls : List DatagramCall) : ∃ r ms, (run (step evp) (fresh st) calls).Delivers evp r ms := by
  obtain ⟨r, hfresh, -⟩ := inv_init h
  obtain ⟨r', ms, hrun⟩ := run_invariant (P := fun d => ∃ r ms, Inv d r ms) ⟨r, [], hfresh⟩
    (fun d call ⟨_, _, hd⟩ => hd.step evp call) calls
  exact ⟨r', ms, hrun.delivers evp⟩

/-- Two datagrams, and a read with room for the first. -/
theorem datagrams_delivered_two : ∃ st r ms,
    Stream.init 1 ⟨.none, List.replicate 32 0, rfl⟩ 270 256 1 .unordered = .ok st ∧
    (run (step .plain) (fresh st) [.feed ⟨1, 0, closingNothing, [7]⟩ ⟨true, true⟩,
      .feed ⟨1, 1, closingNothing, [8, 9]⟩ ⟨true, true⟩, .read 1]).Delivers .plain r ms := by
  obtain ⟨st, hst⟩ := Stream.init_isOk 1 ⟨.none, List.replicate 32 0, rfl⟩ 270 256 1 .unordered
    (by decide) (by decide) (by decide)
  obtain ⟨r, ms, h⟩ := datagrams_delivered .plain hst
    [.feed ⟨1, 0, closingNothing, [7]⟩ ⟨true, true⟩,
      .feed ⟨1, 1, closingNothing, [8, 9]⟩ ⟨true, true⟩, .read 1]
  exact ⟨st, r, ms, hst, h⟩

/-- A datagram behind the closing frame is discarded with room in the queue, and not counted. -/
theorem late_datagram_discarded : ∃ st d r,
    Stream.init 1 ⟨.none, List.replicate 32 0, rfl⟩ 270 256 1 .unordered = .ok st ∧
    d = run (step .plain) (fresh st) [.feed ⟨1, 0, closingStream, []⟩ ⟨true, true⟩] ∧
    d.stream.recv = .unordered r ∧ ¬ r.LacksRoom ⟨1, 1, closingNothing, [7]⟩ ∧
    (d.feed ⟨1, 1, closingNothing, [7]⟩ ⟨true, true⟩).accepted = [] ∧
    (d.feed ⟨1, 1, closingNothing, [7]⟩ ⟨true, true⟩).stream.droppedCount = 0 := by
  obtain ⟨st, hst⟩ := Stream.init_isOk 1 ⟨.none, List.replicate 32 0, rfl⟩ 270 256 1 .unordered
    (by decide) (by decide) (by decide)
  obtain ⟨r, hfresh, hcap⟩ := inv_init hst
  have hopen : ¬ r.recvClosingSeen = true := fun hseen => by
    simpa [fresh] using hfresh.seen.mp hseen
  have hclose : r.feedFrame ⟨1, 0, closingStream, []⟩
      = ({ r with recvClosingSeen := true, recvMsgs := r.recvMsgs.close }, .closed) := by
    rw [UnorderedRecv.feedFrame, if_neg hopen, if_pos (by decide)]
  obtain ⟨ms, -, hclosed⟩ := hfresh.feed ⟨1, 0, closingStream, []⟩ ⟨true, true⟩
  rw [hclose] at hclosed
  obtain rfl : ms = [] := List.length_eq_zero_iff.mp
    (hclosed.holds.msgs.count.symm.trans hfresh.holds.msgs.count)
  have hlen : r.recvMsgs.len = 0 := hfresh.holds.msgs.len
  have hdropped : r.recvDroppedDatagrams = 0 := hfresh.counted
  have hlate : (Frame.mk 1 1 closingNothing [7]).closing = closingNothing := rfl
  obtain ⟨hsame, -⟩ := hclosed.fed_refused ⟨true, true⟩ hlate
    (.inl (hclosed.seen.mp rfl))
  refine ⟨st, _, _, hst, rfl, hclosed.recv, ?_, ?_, ?_⟩
  · change ¬ r.recvMsgs.cap - r.recvMsgs.len < 1 + msgQueueLenPrefix
    rw [hcap, hlen]
    decide
  · simp only [run, List.foldl_cons, List.foldl_nil, step]
    rw [DatagramStream.feed, hsame]
    simp only [Nat.lt_irrefl, if_false]
    exact hclosed.order
  · simp only [run, List.foldl_cons, List.foldl_nil, step]
    rw [DatagramStream.feed, hsame]
    exact hclosed.droppedCount.trans (hclosed.counted.symm.trans hdropped)

end DatagramStream

end Cloak
