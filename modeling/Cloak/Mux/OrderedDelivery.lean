import Cloak.Lib.Run
import Cloak.Mux.Stream

set_option autoImplicit false

/-! # Ordered delivery, end to end

What an ordered receiver makes of the frames of an ordered sender, whatever the network does to
them. `Tracks F out r` ties the receive side `r` to the frames `F` sent so far and the bytes `out`
read so far: the bytes read and those in the ring are the payloads of the frames below
`next_recv_seq`, all of them data frames, whatever waits in the heap is a frame of `F`, and a
closing frame that has been drained is the one `next_recv_seq` stands on. Each move of the receive
side keeps it, so it holds along every interleaving of sends, deliveries and reads.

Safety (`link_returned_isPrefix`) reads it off together with what the sender has sent. Completeness
(`ordered_read_complete`) adds that no accepted frame is lost (`Accounts`) and that no deliverable
frame is left behind (`OrderedRecv.NoStall`). -/

namespace Cloak

open Lib

/-- The payload bytes of a list of frames, in order. -/
def payloads (fs : List Frame) : List UInt8 := fs.flatMap Frame.payload

@[simp] theorem payloads_nil : payloads [] = [] := rfl

theorem payloads_append (fs gs : List Frame) : payloads (fs ++ gs) = payloads fs ++ payloads gs :=
  List.flatMap_append

theorem payloads_singleton (f : Frame) : payloads [f] = f.payload := by
  simp [payloads]

/-- The bytes a read returns. -/
def readBytes : ReadResult → List UInt8
  | .bytes bs => bs
  | _ => []

/-! ## The receive side against the frames sent -/

/-- Frame `i` of the list has sequence number `i`. -/
def Sequenced (F : List Frame) : Prop := ∀ (i : Nat) (f : Frame), F[i]? = some f → f.seq = i

/-- The receive side `r`, after `out` was read from it, against the frames `F` sent so far. -/
structure Tracks (F : List Frame) (out : List UInt8) (r : OrderedRecv) : Prop where
  next_le : r.nextRecvSeq ≤ F.length
  data : ∀ f ∈ F.take r.nextRecvSeq, f.closing = closingNothing
  delivered : out ++ r.recvBytes.contents = payloads (F.take r.nextRecvSeq)
  pending : ∀ pf ∈ r.heap.toList, ∃ f, F[pf.seq]? = some f ∧ f.closing = pf.closing
    ∧ f.payload = pf.payload
  closing : r.recvClosingSeen = true → ∃ f, F[r.nextRecvSeq]? = some f ∧ f.closing ≠ closingNothing

namespace Tracks

variable {F : List Frame} {out : List UInt8} {r : OrderedRecv}

/-- More frames sent change nothing for the receiver. -/
theorem append (h : Tracks F out r) (G : List Frame) : Tracks (F ++ G) out r := by
  have htake : (F ++ G).take r.nextRecvSeq = F.take r.nextRecvSeq :=
    List.take_append_of_le_length h.next_le
  refine ⟨?_, ?_, ?_, ?_, ?_⟩
  · rw [List.length_append]
    exact Nat.le_add_right_of_le h.next_le
  · rw [htake]
    exact h.data
  · rw [htake]
    exact h.delivered
  · intro pf hpf
    obtain ⟨f, hf, hrest⟩ := h.pending pf hpf
    exact ⟨f, List.getElem?_append_left (List.getElem?_eq_some_iff.mp hf).1 ▸ hf, hrest⟩
  · intro hc
    obtain ⟨f, hf, hrest⟩ := h.closing hc
    exact ⟨f, List.getElem?_append_left (List.getElem?_eq_some_iff.mp hf).1 ▸ hf, hrest⟩

theorem fresh (q : ByteQueue) (hopen : q.closed = false) (hq : q.contents = []) (n : Nat) :
    Tracks [] [] (OrderedRecv.fresh q hopen n) where
  next_le := Nat.zero_le _
  data := by simp
  delivered := by
    rw [List.take_nil, payloads_nil]
    exact hq
  pending := by simp [OrderedRecv.fresh]
  closing := by simp [OrderedRecv.fresh]

theorem deliverHead (hr : Tracks F out r) (h : 0 < r.heap.size)
    (hseq : r.heap[0].seq = r.nextRecvSeq) (hdata : r.heap[0].closing = closingNothing)
    (hfree : r.heap[0].payload.length ≤ r.recvBytes.freeSpace) :
    Tracks F out (r.deliverHead h hseq) := by
  obtain ⟨f, hf, hfc, hfp⟩ := hr.pending _ (r.head_mem h)
  rw [hseq] at hf
  have hlt := (List.getElem?_eq_some_iff.mp hf).1
  have htake : F.take (r.nextRecvSeq + 1) = F.take r.nextRecvSeq ++ [f] := by
    rw [List.take_add_one, hf]
    rfl
  have hopen : r.recvBytes.closed = false := by
    rw [r.closed_eq, Bool.eq_false_iff]
    intro hc
    exact absurd (r.closed_lt hc _ (r.head_mem h)) (by omega)
  refine ⟨hlt, ?_, ?_, ?_, ?_⟩
  · change ∀ f ∈ F.take (r.nextRecvSeq + 1), _
    intro g hg
    rw [htake, List.mem_append, List.mem_singleton] at hg
    obtain hg | rfl := hg
    · exact hr.data g hg
    · rw [hfc, hdata]
  · change out ++ (r.recvBytes.write r.heap[0].payload).1.contents
      = payloads (F.take (r.nextRecvSeq + 1))
    rw [ByteQueue.contents_write _ _ hopen hfree, htake, payloads_append, payloads_singleton,
      ← hr.delivered, hfp, List.append_assoc]
  · intro pf hpf
    exact hr.pending pf (OrderedRecv.mem_of_mem_heapPop hpf)
  · intro hc
    change r.recvClosingSeen = true at hc
    rw [← r.closed_eq, hopen] at hc
    cases hc

theorem closeHead (hr : Tracks F out r) (h : 0 < r.heap.size)
    (hseq : r.heap[0].seq = r.nextRecvSeq) (hclosing : r.heap[0].closing ≠ closingNothing) :
    Tracks F out (r.closeHead h hseq) := by
  refine ⟨hr.next_le, hr.data, hr.delivered, ?_, ?_⟩
  · intro pf hpf
    exact hr.pending pf (OrderedRecv.mem_of_mem_heapPop hpf)
  · intro _
    obtain ⟨f, hf, hfc, _⟩ := hr.pending _ (r.head_mem h)
    exact ⟨f, hseq ▸ hf, hfc ▸ hclosing⟩

theorem tryDrain (hr : Tracks F out r) (fuel : Nat) :
    Tracks F out (OrderedRecv.tryDrain fuel r).1 :=
  OrderedRecv.tryDrain_induction
    (fun _ h hseq hr hdata hfree => hr.deliverHead h hseq hdata hfree)
    (fun _ h hseq hr hclosing => hr.closeHead h hseq hclosing) fuel r hr

/-- Feeding any frame of `F`, for the first time or again. -/
theorem feedFrame (hr : Tracks F out r) (hF : Sequenced F) {i : Nat} {f : Frame}
    (hf : F[i]? = some f) (allocs : FeedAllocs) : Tracks F out (r.feedFrame f allocs).1 := by
  obtain heq | ⟨r', hadm, heq, _⟩ := r.feedFrame_cases f allocs
  · rw [heq]
    exact hr
  · rw [heq]
    apply Tracks.tryDrain
    obtain ⟨_, _, _, _, rfl⟩ := OrderedRecv.accept_eq_some hadm
    refine ⟨hr.next_le, hr.data, hr.delivered, ?_, hr.closing⟩
    intro pf hpf
    obtain rfl | hpf := List.mem_cons.mp ((heapPush_perm _ _ _).subset hpf)
    · exact ⟨f, (hF i f hf).symm ▸ hf, rfl, rfl⟩
    · exact hr.pending pf hpf

theorem read (hr : Tracks F out r) (outCap : Nat) :
    Tracks F (out ++ readBytes (r.read outCap).2) (r.read outCap).1 := by
  obtain ⟨_, _, heq⟩ | ⟨_, _, heq⟩ | ⟨_, heq⟩ := r.read_cases outCap
  · rw [heq]
    simpa [readBytes] using hr
  · rw [heq]
    simpa [readBytes] using hr
  · rw [heq]
    apply Tracks.tryDrain
    refine ⟨hr.next_le, hr.data, ?_, hr.pending, hr.closing⟩
    change out ++ r.recvBytes.contents.take outCap ++ (r.recvBytes.read outCap).2.contents
      = payloads (F.take r.nextRecvSeq)
    rw [ByteQueue.contents_read, List.append_assoc, List.take_append_drop]
    exact hr.delivered

end Tracks

/-! ## The send side -/

/-- What a run of the write loop has done: the frames it handed to the sink are numbered from
    `next_write_seq` on and are data frames, their payloads are what was written if all of it went
    out, and otherwise a part of it with the send side closed. -/
structure WriteLoopSpec (s : Stream) (rest : List UInt8) (s' : Stream) (fs : List SealedFrame)
    (ok : Bool) : Prop where
  recv : s'.recv = s.recv
  seq : s'.nextWriteSeq = s.nextWriteSeq + fs.length
  numbered : ∀ j f, (fs.map SealedFrame.frame)[j]? = some f → f.seq = s.nextWriteSeq + j
  data : ∀ f ∈ fs.map SealedFrame.frame, f.closing = closingNothing
  sent : ok = true → s'.writeClosed = s.writeClosed ∧ payloads (fs.map SealedFrame.frame) = rest
  failed : ok = false → s'.writeClosed = true ∧ payloads (fs.map SealedFrame.frame) <+: rest

theorem Stream.writeLoop_spec (evp : Evp) (env : Nat → FrameEnv) (fuel : Nat) (s : Stream)
    (i : Nat) (rest : List UInt8) (hfuel : rest.length ≤ fuel) :
    WriteLoopSpec s rest (Stream.writeLoop evp env fuel s i rest).1
      (Stream.writeLoop evp env fuel s i rest).2.1
      (Stream.writeLoop evp env fuel s i rest).2.2 := by
  -- each turn takes a byte at least, so that the bytes left are fuel enough
  induction fuel generalizing s i rest with
  | zero =>
    have hnil := List.length_eq_zero_iff.mp (Nat.le_zero.mp hfuel)
    subst hnil
    exact ⟨rfl, rfl, by simp [Stream.writeLoop], by simp [Stream.writeLoop],
      fun _ => ⟨rfl, rfl⟩, by simp [Stream.writeLoop]⟩
  | succ fuel ih =>
    rw [Stream.writeLoop]
    split
    · next hz =>
      have hnil := List.length_eq_zero_iff.mp hz
      subst hnil
      exact ⟨rfl, rfl, by simp, by simp, fun _ => ⟨rfl, rfl⟩, by simp⟩
    · next hz =>
      split
      -- no frame was sealed: writing ends before it numbers one
      · next s' hseal =>
        obtain rfl := Stream.sealFrame_none hseal
        exact ⟨rfl, rfl, by simp, by simp, by simp, fun _ => ⟨rfl, List.nil_prefix⟩⟩
      · next s' f hseal =>
        obtain ⟨rfl, hf⟩ := Stream.sealFrame_some hseal
        have hsplit := List.take_append_drop s.maxPayloadPerFrame rest
        split
        · -- the sink took the frame: the rest of the loop starts one sequence number later
          have hspec := ih { s with nextWriteSeq := s.nextWriteSeq + 1 } (i + 1)
            (rest.drop s.maxPayloadPerFrame) (by
              have hpos := s.maxPayload_pos
              rw [List.length_drop]
              omega)
          generalize Stream.writeLoop evp env fuel { s with nextWriteSeq := s.nextWriteSeq + 1 }
            (i + 1) (rest.drop s.maxPayloadPerFrame) = w at hspec
          refine ⟨hspec.recv, ?_, ?_, ?_, ?_, ?_⟩
          · rw [hspec.seq, List.length_cons]
            dsimp only
            omega
          · intro j g hg
            rw [List.map_cons] at hg
            cases j with
            | zero =>
              obtain rfl := Option.some.inj hg
              rw [hf]
              rfl
            | succ j =>
              rw [hspec.numbered j g hg]
              dsimp only
              omega
          · intro g hg
            obtain rfl | hg := List.mem_cons.mp hg
            · rw [hf]
            · exact hspec.data g hg
          · intro hok
            obtain ⟨hclosed, hpay⟩ := hspec.sent hok
            refine ⟨hclosed, ?_⟩
            rw [List.map_cons, ← List.singleton_append, payloads_append, payloads_singleton, hpay,
              hf]
            exact hsplit
          · intro hok
            obtain ⟨hclosed, hpay⟩ := hspec.failed hok
            refine ⟨hclosed, ?_⟩
            rw [List.map_cons, ← List.singleton_append, payloads_append, payloads_singleton, hf]
            conv_rhs => rw [← hsplit]
            exact List.prefix_append_right_inj _ |>.mpr hpay
        -- the sink failed on a frame that was numbered: it is the last one
        · refine ⟨rfl, rfl, ?_, ?_, by simp, ?_⟩
          · intro j g hg
            cases j with
            | zero =>
              obtain rfl := Option.some.inj hg
              rw [hf]
              rfl
            | succ j => simp at hg
          · intro g hg
            rw [List.map_singleton, List.mem_singleton] at hg
            rw [hg, hf]
          · intro _
            refine ⟨rfl, ?_⟩
            rw [List.map_singleton, payloads_singleton, hf]
            exact List.take_prefix _ _

/-! ## A sender and a receiver -/

/-- An ordered sender, the frames it has handed to its sink, an ordered receiver and the bytes its
    reads have returned. -/
structure Link where
  sender : Stream
  sent : List Frame
  receiver : Stream
  returned : List UInt8

/-- What can happen on a link. A delivery feeds the receiver any frame sent so far, so that frames
    may arrive in any order, again, or never. -/
inductive LinkEvent where
  | write (bs : List UInt8) (env : Nat → FrameEnv)
  | sendClosing (closingType : {ty : UInt8 // ty ≠ closingNothing}) (env : ClosingEnv)
  | deliver (i : Nat) (allocs : FeedAllocs)
  | read (outCap : Nat)

def LinkEvent.isClosing : LinkEvent → Bool
  | .sendClosing _ _ => true
  | _ => false

def LinkEvent.written : LinkEvent → List UInt8
  | .write bs _ => bs
  | _ => []

/-- All bytes passed to `cloak_stream_write`. -/
def writtenBytes (es : List LinkEvent) : List UInt8 := es.flatMap LinkEvent.written

/-- The bytes passed to `cloak_stream_write` before the first `cloak_stream_send_closing`. -/
def writtenBeforeClose : List LinkEvent → List UInt8
  | [] => []
  | e :: es => if e.isClosing then [] else e.written ++ writtenBeforeClose es

def linkStep (evp : Evp) (l : Link) : LinkEvent → Link
  | .write bs env =>
    { l with
      sender := (l.sender.write evp bs env).1
      sent := l.sent ++ (l.sender.write evp bs env).2.1.map SealedFrame.frame }
  | .sendClosing ty env =>
    { l with
      sender := (l.sender.sendClosing evp ty.val env).1
      sent := l.sent ++ (l.sender.sendClosing evp ty.val env).2.1.map SealedFrame.frame }
  | .deliver i allocs =>
    match l.sent[i]? with
    | none => l
    | some f => { l with receiver := (l.receiver.feedFrame f allocs).1 }
  | .read outCap =>
    { l with
      receiver := (l.receiver.read outCap).1
      returned := l.returned ++ readBytes (l.receiver.read outCap).2 }

theorem writtenBytes_concat (es : List LinkEvent) (e : LinkEvent) :
    writtenBytes (es ++ [e]) = writtenBytes es ++ e.written := by
  simp [writtenBytes]

theorem writtenBeforeClose_isPrefix (es : List LinkEvent) :
    writtenBeforeClose es <+: writtenBytes es := by
  induction es with
  | nil => exact List.nil_prefix
  | cons e es ih =>
    rw [writtenBeforeClose]
    split
    · exact List.nil_prefix
    · exact (List.prefix_append_right_inj _).mpr ih

/-- Once there is a close, what follows does not change what came before it. -/
theorem writtenBeforeClose_append {es : List LinkEvent} (h : ∃ e ∈ es, e.isClosing = true)
    (es' : List LinkEvent) : writtenBeforeClose (es ++ es') = writtenBeforeClose es := by
  induction es with
  | nil =>
    obtain ⟨e, he, _⟩ := h
    cases he
  | cons e es ih =>
    rw [List.cons_append, writtenBeforeClose, writtenBeforeClose]
    split
    · rfl
    · next hne =>
      obtain ⟨e', he', hc⟩ := h
      obtain rfl | he' := List.mem_cons.mp he'
      · exact absurd hc hne
      · rw [ih ⟨e', he', hc⟩]

theorem writtenBeforeClose_concat_closing {es : List LinkEvent} {e : LinkEvent}
    (h : ∀ e ∈ es, e.isClosing = false) (he : e.isClosing = true) :
    writtenBeforeClose (es ++ [e]) = writtenBytes es := by
  induction es with
  | nil =>
    rw [List.nil_append, writtenBeforeClose, if_pos he]
    rfl
  | cons e' es ih =>
    have he' := h e' (List.mem_cons_self ..)
    rw [List.cons_append, writtenBeforeClose, if_neg (by simp [he']),
      ih fun x hx => h x (List.mem_cons_of_mem _ hx)]
    rfl

/-- What the sender has sent after the events `es`: while it is open, exactly what was written;
    after a failure, data frames with a part of it; after a close, all that was written before the
    close and then the closing frame. -/
structure SenderInv (es : List LinkEvent) (l : Link) : Prop where
  ordered : l.sender.isOrdered = true
  sequenced : Sequenced l.sent
  next_eq : l.sender.nextWriteSeq = l.sent.length
  isOpen : l.sender.writeClosed = false → (∀ e ∈ es, e.isClosing = false)
    ∧ (∀ f ∈ l.sent, f.closing = closingNothing) ∧ payloads l.sent = writtenBytes es
  isClosed : l.sender.writeClosed = true →
    ((∀ f ∈ l.sent, f.closing = closingNothing) ∧ payloads l.sent <+: writtenBytes es)
      ∨ ∃ fs f, l.sent = fs ++ [f] ∧ f.closing ≠ closingNothing
        ∧ (∀ f ∈ fs, f.closing = closingNothing) ∧ payloads fs = writtenBeforeClose es
        ∧ ∃ e ∈ es, e.isClosing = true

/-- An event that leaves the sender alone and writes nothing. -/
theorem SenderInv.of_sender_eq {es : List LinkEvent} {l l' : Link} (h : SenderInv es l)
    (e : LinkEvent) (hsender : l'.sender = l.sender) (hsent : l'.sent = l.sent)
    (he : l.sender.writeClosed = false → e.isClosing = false ∧ e.written = []) :
    SenderInv (es ++ [e]) l' := by
  refine ⟨?_, ?_, ?_, ?_, ?_⟩
  · rw [hsender]
    exact h.ordered
  · rw [hsent]
    exact h.sequenced
  · rw [hsender, hsent]
    exact h.next_eq
  · rw [hsender, hsent]
    intro hopen
    obtain ⟨hno, hdata, hpay⟩ := h.isOpen hopen
    refine ⟨?_, hdata, ?_⟩
    · intro e' he'
      obtain he' | he' := List.mem_append.mp he'
      · exact hno e' he'
      · rw [List.mem_singleton.mp he']
        exact (he hopen).1
    · rw [writtenBytes_concat, (he hopen).2, List.append_nil, hpay]
  · rw [hsender, hsent]
    intro hclosed
    obtain ⟨hdata, hpay⟩ | ⟨fs, f, hfs, hf, hdata, hpay, hc⟩ := h.isClosed hclosed
    · refine Or.inl ⟨hdata, ?_⟩
      rw [writtenBytes_concat]
      exact hpay.trans (List.prefix_append _ _)
    · refine Or.inr ⟨fs, f, hfs, hf, hdata, ?_, ?_⟩
      · rw [writtenBeforeClose_append hc, hpay]
      · obtain ⟨e', he', hc⟩ := hc
        exact ⟨e', List.mem_append_left _ he', hc⟩

/-- Appending frames numbered from the end on keeps a list sequenced. -/
theorem Sequenced.append {F G : List Frame} (hF : Sequenced F)
    (hG : ∀ j f, G[j]? = some f → f.seq = F.length + j) : Sequenced (F ++ G) := by
  intro i f hf
  by_cases hi : i < F.length
  · rw [List.getElem?_append_left hi] at hf
    exact hF i f hf
  · rw [List.getElem?_append_right (Nat.not_lt.mp hi)] at hf
    rw [hG _ f hf]
    omega

theorem SenderInv.write (evp : Evp) {es : List LinkEvent} {l : Link} (h : SenderInv es l)
    (bs : List UInt8) (env : Nat → FrameEnv) :
    SenderInv (es ++ [.write bs env]) (linkStep evp l (.write bs env)) := by
  by_cases hc : l.sender.writeClosed = true
  · have hw : l.sender.write evp bs env = (l.sender, [], .error) := by
      rw [Stream.write, if_pos hc]
    refine h.of_sender_eq _ ?_ ?_ (fun hopen => absurd hc (by simp [hopen]))
    · simp only [linkStep, hw]
    · simp only [linkStep, hw, List.map_nil, List.append_nil]
  · have hopen := Bool.eq_false_iff.mpr hc
    obtain ⟨hno, hdata, hpay⟩ := h.isOpen hopen
    have hspec := Stream.writeLoop_spec evp env bs.length l.sender 0 bs (Nat.le_refl _)
    have hw : l.sender.write evp bs env
        = ((Stream.writeLoop evp env bs.length l.sender 0 bs).1,
          (Stream.writeLoop evp env bs.length l.sender 0 bs).2.1,
          if (Stream.writeLoop evp env bs.length l.sender 0 bs).2.2 then .ok else .error) := by
      rw [Stream.write, if_neg hc, if_neg (by simp [h.ordered])]
    generalize Stream.writeLoop evp env bs.length l.sender 0 bs = w at hspec hw
    have hsender : (linkStep evp l (.write bs env)).sender = w.1 := by simp only [linkStep, hw]
    have hsent : (linkStep evp l (.write bs env)).sent = l.sent ++ w.2.1.map SealedFrame.frame := by
      simp only [linkStep, hw]
    have hall : ∀ f ∈ l.sent ++ w.2.1.map SealedFrame.frame, f.closing = closingNothing := by
      intro f hf
      obtain hf | hf := List.mem_append.mp hf
      · exact hdata f hf
      · exact hspec.data f hf
    refine ⟨?_, ?_, ?_, ?_, ?_⟩
    · rw [hsender, Stream.isOrdered, hspec.recv]
      exact h.ordered
    · rw [hsent]
      refine h.sequenced.append fun j f hf => ?_
      rw [hspec.numbered j f hf, h.next_eq]
    · rw [hsender, hsent, hspec.seq, h.next_eq, List.length_append, List.length_map]
    · rw [hsender, hsent]
      intro hopen'
      cases hok : w.2.2 with
      | false =>
        rw [(hspec.failed hok).1] at hopen'
        cases hopen'
      | true =>
        refine ⟨?_, hall, ?_⟩
        · intro e he
          obtain he | he := List.mem_append.mp he
          · exact hno e he
          · rw [List.mem_singleton.mp he]
            rfl
        · rw [payloads_append, hpay, (hspec.sent hok).2, writtenBytes_concat]
          rfl
    · rw [hsender, hsent]
      intro _
      refine Or.inl ⟨hall, ?_⟩
      rw [payloads_append, hpay, writtenBytes_concat]
      refine (List.prefix_append_right_inj _).mpr ?_
      cases hok : w.2.2 with
      | false => exact (hspec.failed hok).2
      | true =>
        rw [(hspec.sent hok).2]
        exact List.prefix_refl _

theorem SenderInv.sendClosing (evp : Evp) {es : List LinkEvent} {l : Link} (h : SenderInv es l)
    (ty : {ty : UInt8 // ty ≠ closingNothing}) (env : ClosingEnv) :
    SenderInv (es ++ [.sendClosing ty env]) (linkStep evp l (.sendClosing ty env)) := by
  by_cases hc : l.sender.writeClosed = true
  · have hw : l.sender.sendClosing evp ty.val env = (l.sender, [], false) := by
      rw [Stream.sendClosing, if_pos hc]
    refine h.of_sender_eq _ ?_ ?_ (fun hopen => absurd hc (by simp [hopen]))
    · simp only [linkStep, hw]
    · simp only [linkStep, hw, List.map_nil, List.append_nil]
  · have hopen := Bool.eq_false_iff.mpr hc
    obtain ⟨hno, hdata, hpay⟩ := h.isOpen hopen
    rcases hres : l.sender.sealFrame evp ty.val (l.sender.closingPayload env) env.frame.draws
      with ⟨s', res⟩
    cases res with
    | none =>
      have hw : l.sender.sendClosing evp ty.val env = (s'.closeWrite, [], false) := by
        rw [Stream.sendClosing, if_neg hc, hres]
      obtain rfl := Stream.sealFrame_none hres
      refine ⟨?_, ?_, ?_, ?_, ?_⟩
      · simp only [linkStep, hw]
        exact h.ordered
      · simp only [linkStep, hw, List.map_nil, List.append_nil]
        exact h.sequenced
      · simp only [linkStep, hw, List.map_nil, List.append_nil]
        exact h.next_eq
      · simp [linkStep, hw, Stream.closeWrite]
      · intro _
        refine Or.inl ?_
        simp only [linkStep, hw, List.map_nil, List.append_nil]
        refine ⟨hdata, ?_⟩
        rw [hpay, writtenBytes_concat]
        exact List.prefix_append _ _
    | some f =>
      have hw : l.sender.sendClosing evp ty.val env
          = (s'.closeWrite, [f], env.frame.sinkOk) := by
        rw [Stream.sendClosing, if_neg hc, hres]
      obtain ⟨rfl, hf⟩ := Stream.sealFrame_some hres
      refine ⟨?_, ?_, ?_, ?_, ?_⟩
      · simp only [linkStep, hw]
        exact h.ordered
      · simp only [linkStep, hw, List.map_singleton]
        refine h.sequenced.append fun j g hg => ?_
        cases j with
        | zero =>
          obtain rfl := Option.some.inj hg
          rw [hf, ← h.next_eq]
          rfl
        | succ j => simp at hg
      · simp [linkStep, hw, Stream.closeWrite, h.next_eq]
      · simp [linkStep, hw, Stream.closeWrite]
      · intro _
        refine Or.inr ⟨l.sent, f.frame, ?_, ?_, hdata, ?_, ?_⟩
        · simp only [linkStep, hw, List.map_singleton]
        · rw [hf]
          exact ty.property
        · rw [writtenBeforeClose_concat_closing hno rfl, hpay]
        · exact ⟨_, List.mem_append_right _ (List.mem_singleton_self _), rfl⟩

/-! ## Safety -/

/-- The link after the events `es`. -/
structure LinkInv (es : List LinkEvent) (l : Link) : Prop where
  sender : SenderInv es l
  receiver : ∃ r, l.receiver.recv = .ordered r ∧ Tracks l.sent l.returned r

theorem LinkInv.step (evp : Evp) (es : List LinkEvent) (l : Link) (e : LinkEvent)
    (h : LinkInv es l) : LinkInv (es ++ [e]) (linkStep evp l e) := by
  obtain ⟨r, hrecv, htracks⟩ := h.receiver
  cases e with
  | write bs env => exact ⟨h.sender.write evp bs env, r, hrecv, htracks.append _⟩
  | sendClosing ty env => exact ⟨h.sender.sendClosing evp ty env, r, hrecv, htracks.append _⟩
  | deliver i allocs =>
    simp only [linkStep]
    split
    · exact ⟨h.sender.of_sender_eq _ rfl rfl fun _ => ⟨rfl, rfl⟩, r, hrecv, htracks⟩
    · next f hf =>
      refine ⟨h.sender.of_sender_eq _ rfl rfl fun _ => ⟨rfl, rfl⟩,
        (r.feedFrame f allocs).1, ?_, htracks.feedFrame h.sender.sequenced hf allocs⟩
      simp only [Stream.feedFrame, hrecv]
  | read outCap =>
    refine ⟨h.sender.of_sender_eq _ rfl rfl fun _ => ⟨rfl, rfl⟩, (r.read outCap).1, ?_, ?_⟩
    · simp only [linkStep, Stream.read, hrecv]
    · simp only [linkStep, Stream.read, hrecv]
      exact htracks.read outCap

/-- An initialised ordered stream: nothing sent, nothing received. -/
theorem Stream.init_ordered {id : UInt32} {o : Obfuscator} {m c p : Nat} {s : Stream}
    (h : Stream.init id o m c p .ordered = .ok s) :
    s.nextWriteSeq = 0 ∧ s.writeClosed = false ∧ ∃ q hopen n, q.contents = [] ∧ q.cap = c
      ∧ s.recv = .ordered (OrderedRecv.fresh q hopen n) := by
  unfold Stream.init at h
  rw [if_neg (by decide)] at h
  split at h
  · cases h
  · split at h
    · cases h
    · split at h
      · cases h
      · next recv hrecv =>
        obtain rfl := Except.ok.inj h
        simp only [Stream.initRecv] at hrecv
        split at hrecv
        · cases hrecv
        · next q hq =>
          obtain rfl := Option.some.inj hrecv
          have hspec := ByteQueue.init_spec hq
          exact ⟨rfl, rfl, q, hspec.2.1, _, hspec.1, hspec.2.2, rfl⟩

/-- The link after `es` events from two fresh ordered streams. -/
theorem linkInv_run (evp : Evp) {sender receiver : Stream} {ids idr : UInt32} {o o' : Obfuscator}
    {ms cs ps mr cr pr : Nat} (hs : Stream.init ids o ms cs ps .ordered = .ok sender)
    (hr : Stream.init idr o' mr cr pr .ordered = .ok receiver) (es : List LinkEvent) :
    LinkInv es (run (linkStep evp) ⟨sender, [], receiver, []⟩ es) := by
  refine run_history ?_ (fun es l e => LinkInv.step evp es l e) es
  obtain ⟨hseq, hopen, q, ho, n, hq, _, hrecv⟩ := Stream.init_ordered hs
  obtain ⟨_, _, q', ho', n', hq', _, hrecv'⟩ := Stream.init_ordered hr
  refine ⟨⟨?_, ?_, ?_, ?_, ?_⟩, _, hrecv', Tracks.fresh q' ho' hq' n'⟩
  · rw [Stream.isOrdered, hrecv]
  · intro i f hf
    simp at hf
  · exact hseq
  · intro _
    exact ⟨by simp, by simp, rfl⟩
  · intro hclosed
    rw [hopen] at hclosed
    cases hclosed

/-- The payloads of the first frames, all of them data frames, stop before any closing frame. -/
theorem payloads_take_eq {fs : List Frame} {f : Frame} {m : Nat}
    (hf : f.closing ≠ closingNothing)
    (hdata : ∀ g ∈ (fs ++ [f]).take m, g.closing = closingNothing) :
    m ≤ fs.length ∧ payloads ((fs ++ [f]).take m) = payloads (fs.take m) := by
  have hm : m ≤ fs.length := by
    by_contra hlt
    have hall : (fs ++ [f]).take m = fs ++ [f] := by
      apply List.take_of_length_le
      simp only [List.length_append, List.length_singleton]
      omega
    exact hf (hdata f (by rw [hall]; simp))
  exact ⟨hm, by rw [List.take_append_of_le_length hm]⟩

theorem payloads_take_isPrefix (fs : List Frame) (m : Nat) :
    payloads (fs.take m) <+: payloads fs := by
  refine ⟨payloads (fs.drop m), ?_⟩
  rw [← payloads_append, List.take_append_drop]

/-- **Safety.** Whatever is written, lost, repeated, reordered and read, the bytes returned so far
    are the first bytes written, and a read reports the end of the stream only when every byte
    written before the close has been returned. -/
theorem link_returned_isPrefix (evp : Evp) (sender receiver : Stream) (ids idr : UInt32)
    (o o' : Obfuscator) (ms cs ps mr cr pr : Nat)
    (hs : Stream.init ids o ms cs ps .ordered = .ok sender)
    (hr : Stream.init idr o' mr cr pr .ordered = .ok receiver) (es : List LinkEvent) :
    (run (linkStep evp) ⟨sender, [], receiver, []⟩ es).returned <+: writtenBytes es
      ∧ ∀ outCap, ((run (linkStep evp) ⟨sender, [], receiver, []⟩ es).receiver.read outCap).2 = .eof →
        (run (linkStep evp) ⟨sender, [], receiver, []⟩ es).returned = writtenBeforeClose es := by
  have hinv := linkInv_run evp hs hr es
  generalize run (linkStep evp) ⟨sender, [], receiver, []⟩ es = l at hinv
  obtain ⟨hsender, r, hrecv, htracks⟩ := hinv
  have hret : l.returned <+: payloads (l.sent.take r.nextRecvSeq) := by
    rw [← htracks.delivered]
    exact List.prefix_append _ _
  have hdata := htracks.data
  constructor
  · cases hc : l.sender.writeClosed with
    | false =>
      rw [← (hsender.isOpen hc).2.2]
      exact hret.trans (payloads_take_isPrefix _ _)
    | true =>
      obtain ⟨_, hpay⟩ | ⟨fs, f, hfs, hf, _, hpay, _⟩ := hsender.isClosed hc
      · exact (hret.trans (payloads_take_isPrefix _ _)).trans hpay
      · rw [hfs] at hret hdata
        rw [(payloads_take_eq hf hdata).2] at hret
        refine (hret.trans (payloads_take_isPrefix _ _)).trans ?_
        rw [hpay]
        exact writtenBeforeClose_isPrefix es
  · intro outCap hread
    simp only [Stream.read, hrecv] at hread
    have heof : r.recvBytes.isEof = true := by
      obtain ⟨_, heof, _⟩ | ⟨_, _, heq⟩ | ⟨_, heq⟩ := r.read_cases outCap
      · exact heof
      · rw [heq] at hread
        cases hread
      · rw [heq] at hread
        cases hread
    obtain ⟨hclosed, hempty⟩ := r.recvBytes.isEof_iff.mp heof
    rw [r.closed_eq] at hclosed
    obtain ⟨c, hc, hcc⟩ := htracks.closing hclosed
    have hcmem : c ∈ l.sent := List.mem_of_getElem? hc
    -- a closing frame was sent, so the sender is closed, and it is the last frame
    cases hw : l.sender.writeClosed with
    | false => exact absurd ((hsender.isOpen hw).2.1 c hcmem) hcc
    | true =>
      obtain ⟨hall, _⟩ | ⟨fs, f, hfs, hf, hfdata, hpay, _⟩ := hsender.isClosed hw
      · exact absurd (hall c hcmem) hcc
      · rw [hfs] at hc hdata
        obtain ⟨hm, htake⟩ := payloads_take_eq hf hdata
        have hnext : r.nextRecvSeq = fs.length := by
          by_contra hne
          rw [List.getElem?_append_left (by omega)] at hc
          exact hcc (hfdata c (List.mem_of_getElem? hc))
        have hdel := htracks.delivered
        rw [hempty, List.append_nil, hfs, htake, hnext, List.take_length, hpay] at hdel
        exact hdel

/-- Two bytes written by one stream and read, one at a time, by another. -/
theorem link_returned_two : ∃ s,
    Stream.init 1 ⟨.none, List.replicate 32 0, rfl⟩ 270 256 4 .ordered = .ok s
      ∧ (run (linkStep Evp.plain) ⟨s, [], s, []⟩
          [.write [7, 8] fun _ => ⟨⟨0, fun _ => 0⟩, true⟩, .deliver 1 ⟨true, true⟩,
            .deliver 0 ⟨true, true⟩, .read 1, .read 1]).returned <+: [7, 8] := by
  obtain ⟨s, hs⟩ := Stream.init_isOk 1 ⟨.none, List.replicate 32 0, rfl⟩ 270 256 4 .ordered
    (by decide) (by decide) (by decide)
  exact ⟨s, hs, (link_returned_isPrefix Evp.plain s s 1 1 _ _ 270 256 4 270 256 4 hs hs _).1⟩

/-! ## Completeness -/

/-- An ordered receiver, the bytes its reads have returned, and whether a feed was refused. -/
structure Receiver where
  stream : Stream
  returned : List UInt8
  refused : Bool

inductive RecvEvent where
  | feed (frame : Frame) (allocs : FeedAllocs)
  | read (outCap : Nat)

def recvStep (v : Receiver) : RecvEvent → Receiver
  | .feed frame allocs =>
    { v with
      stream := (v.stream.feedFrame frame allocs).1
      refused := v.refused || decide ((v.stream.feedFrame frame allocs).2 = .error) }
  | .read outCap =>
    { v with
      stream := (v.stream.read outCap).1
      returned := v.returned ++ readBytes (v.stream.read outCap).2 }

/-- The frames fed along a run. -/
def fedFrames (es : List RecvEvent) : List Frame :=
  es.filterMap fun
    | .feed frame _ => some frame
    | .read _ => none

/-- The first `k` reads, of sizes `caps 0`, `caps 1` and so on. -/
def readSome (v : Receiver) (caps : Nat → Nat) (k : Nat) : Receiver :=
  run recvStep v ((List.range k).map fun j => .read (caps j))

/-- Every frame fed is delivered, waits in the heap, or is the closing frame that was drained. -/
def Accounts (fed : List Frame) (r : OrderedRecv) : Prop :=
  ∀ f ∈ fed, f.seq < r.nextRecvSeq ∨ f.seq ∈ r.heap.toList.map PendingFrame.seq
    ∨ (r.recvClosingSeen = true ∧ f.seq = r.nextRecvSeq)

namespace Accounts

variable {fed : List Frame} {r : OrderedRecv}

/-- A frame waiting in the heap is the head or still waits after a pop. -/
theorem seq_mem_heapPop {seq : Nat} (h : 0 < r.heap.size)
    (hmem : seq ∈ r.heap.toList.map PendingFrame.seq) : seq = r.heap[0].seq
      ∨ seq ∈ (heapPop PendingFrame.seq r.heap h).toList.map PendingFrame.seq := by
  have hperm := (heapPop_perm PendingFrame.seq r.heap h).map PendingFrame.seq
  exact List.mem_cons.mp (hperm.symm.subset hmem)

theorem deliverHead (hr : Accounts fed r) (h : 0 < r.heap.size)
    (hseq : r.heap[0].seq = r.nextRecvSeq) : Accounts fed (r.deliverHead h hseq) := by
  intro f hf
  obtain hlt | hmem | ⟨hc, _⟩ := hr f hf
  · exact Or.inl (Nat.lt_succ_of_lt hlt)
  · obtain heq | hmem := seq_mem_heapPop h hmem
    · exact Or.inl (by rw [heq, hseq]; exact Nat.lt_succ_self _)
    · exact Or.inr (Or.inl hmem)
  · exact absurd (r.closed_lt hc _ (r.head_mem h)) (by omega)

theorem closeHead (hr : Accounts fed r) (h : 0 < r.heap.size)
    (hseq : r.heap[0].seq = r.nextRecvSeq) : Accounts fed (r.closeHead h hseq) := by
  intro f hf
  obtain hlt | hmem | ⟨_, heq⟩ := hr f hf
  · exact Or.inl hlt
  · obtain heq | hmem := seq_mem_heapPop h hmem
    · exact Or.inr (Or.inr ⟨rfl, heq.trans hseq⟩)
    · exact Or.inr (Or.inl hmem)
  · exact Or.inr (Or.inr ⟨rfl, heq⟩)

theorem tryDrain (hr : Accounts fed r) (fuel : Nat) :
    Accounts fed (OrderedRecv.tryDrain fuel r).1 :=
  OrderedRecv.tryDrain_induction (fun _ h hseq hr _ _ => hr.deliverHead h hseq)
    (fun _ h hseq hr _ => hr.closeHead h hseq) fuel r hr

/-- A feed that is not refused accounts for its frame too. -/
theorem feedFrame (hr : Accounts fed r) (frame : Frame) (allocs : FeedAllocs)
    (hok : (r.feedFrame frame allocs).2 ≠ .error) :
    Accounts (fed ++ [frame]) (r.feedFrame frame allocs).1 := by
  obtain heq | ⟨r', hadm, heq, _⟩ := r.feedFrame_cases frame allocs
  · rw [heq] at hok
    exact absurd rfl hok
  · rw [heq]
    apply Accounts.tryDrain
    obtain ⟨_, _, _, _, rfl⟩ := OrderedRecv.accept_eq_some hadm
    have hperm := (heapPush_perm PendingFrame.seq r.heap
      ⟨frame.seq, frame.closing, frame.payload⟩).map PendingFrame.seq
    intro f hf
    obtain hf | hf := List.mem_append.mp hf
    · obtain hlt | hmem | hc := hr f hf
      · exact Or.inl hlt
      · exact Or.inr (Or.inl (hperm.symm.subset (List.mem_cons_of_mem _ hmem)))
      · exact Or.inr (Or.inr hc)
    · rw [List.mem_singleton.mp hf]
      exact Or.inr (Or.inl (hperm.symm.subset (List.mem_cons_self ..)))

theorem read (hr : Accounts fed r) (outCap : Nat) : Accounts fed (r.read outCap).1 := by
  obtain ⟨_, _, heq⟩ | ⟨_, _, heq⟩ | ⟨_, heq⟩ := r.read_cases outCap
  · rw [heq]
    exact hr
  · rw [heq]
    exact hr
  · have htake : Accounts fed (r.takeBytes outCap) := hr
    rw [heq]
    exact htake.tryDrain _

end Accounts

/-- A receiver all of whose frames belong to `F`, after it was fed `fed`. -/
structure RecvInv (F fed : List Frame) (v : Receiver) : Prop where
  recv : ∃ r, v.stream.recv = .ordered r ∧ Tracks F v.returned r ∧ r.NoStall
    ∧ (v.refused = false → Accounts fed r)

theorem RecvInv.feed {F fed : List Frame} {v : Receiver} (hF : Sequenced F)
    (h : RecvInv F fed v) {f : Frame} (hf : f ∈ F) (allocs : FeedAllocs) :
    RecvInv F (fed ++ [f]) (recvStep v (.feed f allocs)) := by
  obtain ⟨r, hrecv, htracks, hstall, hacc⟩ := h.recv
  obtain ⟨i, hi⟩ := List.mem_iff_getElem?.mp hf
  refine ⟨(r.feedFrame f allocs).1, ?_, htracks.feedFrame hF hi allocs,
    r.feedFrame_noStall f allocs hstall, ?_⟩
  · simp only [recvStep, Stream.feedFrame, hrecv]
  · intro href
    simp only [recvStep, Stream.feedFrame, hrecv, Bool.or_eq_false_iff, decide_eq_false_iff_not]
      at href
    exact (hacc href.1).feedFrame f allocs href.2

theorem RecvInv.read {F fed : List Frame} {v : Receiver} (h : RecvInv F fed v) (outCap : Nat) :
    RecvInv F fed (recvStep v (.read outCap)) := by
  obtain ⟨r, hrecv, htracks, hstall, hacc⟩ := h.recv
  refine ⟨(r.read outCap).1, ?_, ?_, r.read_noStall outCap hstall, fun href => ?_⟩
  · simp only [recvStep, Stream.read, hrecv]
  · simp only [recvStep, Stream.read, hrecv]
    exact htracks.read outCap
  · exact (hacc href).read outCap

theorem fedFrames_concat_feed (es : List RecvEvent) (f : Frame) (allocs : FeedAllocs) :
    fedFrames (es ++ [.feed f allocs]) = fedFrames es ++ [f] := by
  simp [fedFrames]

theorem fedFrames_concat_read (es : List RecvEvent) (outCap : Nat) :
    fedFrames (es ++ [.read outCap]) = fedFrames es := by
  simp [fedFrames]

theorem recvInv_run {s : Stream} {id : UInt32} {o : Obfuscator} {m c p : Nat}
    (hs : Stream.init id o m c p .ordered = .ok s) {F : List Frame} (hF : Sequenced F)
    (es : List RecvEvent) (hfed : ∀ f ∈ fedFrames es, f ∈ F) :
    RecvInv F (fedFrames es) (run recvStep ⟨s, [], false⟩ es) := by
  revert hfed
  refine run_history
    (P := fun es v => (∀ f ∈ fedFrames es, f ∈ F) → RecvInv F (fedFrames es) v) ?_ ?_ es
  · intro _
    obtain ⟨_, _, q, ho, n, hq, _, hrecv⟩ := Stream.init_ordered hs
    exact ⟨_, hrecv, (Tracks.fresh q ho hq n).append F, OrderedRecv.fresh_noStall q ho n,
      fun _ f hf => absurd hf (by simp [fedFrames])⟩
  · intro es v e ih hmem
    cases e with
    | feed f allocs =>
      rw [fedFrames_concat_feed] at hmem ⊢
      exact (ih fun g hg => hmem g (List.mem_append_left _ hg)).feed hF
        (hmem f (List.mem_append_right _ (List.mem_singleton_self _))) allocs
    | read outCap =>
      rw [fedFrames_concat_read] at hmem ⊢
      exact (ih hmem).read outCap

section Complete

variable {F data : List Frame} {c : Frame}

/-- With every frame accounted for, an empty ring means the end of the stream: the frame expected
    next can only be the closing one, and it has been drained. -/
theorem eof_of_contents_nil (hF : F = data ++ [c]) (hseq : Sequenced F)
    (hdata : ∀ f ∈ data, f.closing = closingNothing) (hc : c.closing ≠ closingNothing)
    {out : List UInt8} {r : OrderedRecv} (htracks : Tracks F out r) (hstall : r.NoStall)
    (hacc : Accounts F r) (hempty : r.recvBytes.contents = []) :
    r.recvBytes.isEof = true ∧ out = payloads data := by
  have hpre := htracks.data
  rw [hF] at hpre
  obtain ⟨hm, htake⟩ := payloads_take_eq hc hpre
  have hseen : r.recvClosingSeen = true := by
    -- otherwise the next frame waits in the heap, and is its minimum
    obtain ⟨f, hf⟩ : ∃ f, F[r.nextRecvSeq]? = some f := by
      rw [hF, List.getElem?_eq_getElem (by simp; omega)]
      exact ⟨_, rfl⟩
    have hfseq := hseq _ f hf
    obtain hlt | hmem | ⟨hseen, _⟩ := hacc f (List.mem_of_getElem? hf)
    · omega
    · obtain ⟨pf, hpf, hpfseq⟩ := List.mem_map.mp hmem
      have hpos : 0 < r.heap.size := by
        rw [← Array.length_toList]
        exact List.length_pos_of_mem hpf
      have hle := r.heap_ordered.root_le_of_mem hpos (Array.mem_toList_iff.mp hpf)
      have hge := r.next_le _ (r.head_mem hpos)
      exact absurd (by omega) (hstall hempty hpos)
    · exact hseen
  obtain ⟨g, hg, hgc⟩ := htracks.closing hseen
  have hnext : r.nextRecvSeq = data.length := by
    by_contra hne
    rw [hF, List.getElem?_append_left (by omega)] at hg
    exact hgc (hdata g (List.mem_of_getElem? hg))
  refine ⟨r.recvBytes.isEof_iff.mpr ⟨by rw [r.closed_eq, hseen], hempty⟩, ?_⟩
  have hdel := htracks.delivered
  rw [hempty, List.append_nil, hF, htake, hnext, List.take_length] at hdel
  exact hdel

theorem readSome_succ (v : Receiver) (caps : Nat → Nat) (k : Nat) :
    readSome v caps (k + 1)
      = readSome (recvStep v (.read (caps 0))) (fun j => caps (j + 1)) k := by
  rw [readSome, readSome, List.range_succ_eq_map, List.map_cons, List.map_map]
  rfl

theorem read_eof {s : Stream} {r : OrderedRecv} (hrecv : s.recv = .ordered r)
    (heof : r.recvBytes.isEof = true) (outCap : Nat) : (s.read outCap).2 = .eof := by
  have hnil : r.recvBytes.contents.take outCap = [] := by
    rw [(r.recvBytes.isEof_iff.mp heof).2, List.take_nil]
  obtain ⟨_, _, heq⟩ | ⟨_, hno, _⟩ | ⟨hne, _⟩ := r.read_cases outCap
  · simp only [Stream.read, hrecv, heq]
  · rw [heof] at hno
    cases hno
  · exact absurd hnil hne

/-- The receiver never holds more than the data. -/
theorem length_returned_add_le (hF : F = data ++ [c]) (hc : c.closing ≠ closingNothing)
    {out : List UInt8} {r : OrderedRecv} (htracks : Tracks F out r) :
    out.length + r.recvBytes.contents.length ≤ (payloads data).length := by
  have hpre := htracks.data
  rw [hF] at hpre
  rw [← List.length_append, htracks.delivered, hF, (payloads_take_eq hc hpre).2]
  exact (payloads_take_isPrefix data r.nextRecvSeq).length_le

/-- Reading on, with any positive sizes, returns the rest of the data and then reports the end. -/
theorem readSome_complete (hF : F = data ++ [c]) (hseq : Sequenced F)
    (hdata : ∀ f ∈ data, f.closing = closingNothing) (hc : c.closing ≠ closingNothing)
    {fed : List Frame} (hfed : ∀ f ∈ F, f ∈ fed) (n : Nat) (v : Receiver)
    (hinv : RecvInv F fed v) (href : v.refused = false)
    (hn : (payloads data).length - v.returned.length ≤ n) (caps : Nat → Nat)
    (hcaps : ∀ j, 0 < caps j) : ∃ k,
      (∀ j < k, ∃ bs, bs ≠ [] ∧ ((readSome v caps j).stream.read (caps j)).2 = .bytes bs)
      ∧ (readSome v caps k).returned = payloads data
      ∧ ∀ outCap, ((readSome v caps k).stream.read outCap).2 = .eof := by
  induction n generalizing v caps with
  | zero =>
    obtain ⟨r, hrecv, htracks, hstall, hacc⟩ := hinv.recv
    have hlen := length_returned_add_le hF hc htracks
    have hempty : r.recvBytes.contents = [] := List.length_eq_zero_iff.mp (by omega)
    obtain ⟨heof, hout⟩ := eof_of_contents_nil hF hseq hdata hc htracks hstall
      (fun f hf => hacc href f (hfed f hf)) hempty
    refine ⟨0, fun j hj => absurd hj (Nat.not_lt_zero j), hout, fun outCap => ?_⟩
    exact read_eof hrecv heof outCap
  | succ n ih =>
    obtain ⟨r, hrecv, htracks, hstall, hacc⟩ := hinv.recv
    by_cases hempty : r.recvBytes.contents = []
    · obtain ⟨heof, hout⟩ := eof_of_contents_nil hF hseq hdata hc htracks hstall
        (fun f hf => hacc href f (hfed f hf)) hempty
      refine ⟨0, fun j hj => absurd hj (Nat.not_lt_zero j), hout, fun outCap => ?_⟩
      exact read_eof hrecv heof outCap
    · have hlen := length_returned_add_le hF hc htracks
      have hne : r.recvBytes.contents.take (caps 0) ≠ [] := by
        rw [Ne, List.take_eq_nil_iff]
        have hpos := hcaps 0
        rintro (h0 | h0)
        · omega
        · exact hempty h0
      have hread : (v.stream.read (caps 0)).2 = .bytes (r.recvBytes.contents.take (caps 0)) := by
        obtain ⟨hnil, _, _⟩ | ⟨hnil, _, _⟩ | ⟨_, heq⟩ := r.read_cases (caps 0)
        · exact absurd hnil hne
        · exact absurd hnil hne
        · simp only [Stream.read, hrecv, heq]
      have hstep : (recvStep v (.read (caps 0))).returned
          = v.returned ++ r.recvBytes.contents.take (caps 0) := by
        simp only [recvStep, hread, readBytes]
      have hgrow := List.length_pos_iff.mpr hne
      obtain ⟨k, hsome, hret, heof⟩ := ih (recvStep v (.read (caps 0))) (hinv.read (caps 0)) href
        (by rw [hstep, List.length_append]; omega) (fun j => caps (j + 1)) (fun j => hcaps (j + 1))
      refine ⟨k + 1, ?_, ?_, ?_⟩
      · intro j hj
        cases j with
        | zero => exact ⟨_, hne, hread⟩
        | succ j =>
          rw [readSome_succ]
          exact hsome j (by omega)
      · rw [readSome_succ]
        exact hret
      · rw [readSome_succ]
        exact heof

end Complete

theorem noStall_run {s : Stream} {id : UInt32} {o : Obfuscator} {m c p : Nat}
    (hs : Stream.init id o m c p .ordered = .ok s) (es : List RecvEvent) :
    ∃ r, (run recvStep ⟨s, [], false⟩ es).stream.recv = .ordered r ∧ r.NoStall := by
  refine run_invariant (P := fun v : Receiver => ∃ r, v.stream.recv = .ordered r ∧ r.NoStall)
    ?_ ?_ es
  · obtain ⟨_, _, q, ho, n, _, _, hrecv⟩ := Stream.init_ordered hs
    exact ⟨_, hrecv, OrderedRecv.fresh_noStall q ho n⟩
  · intro v e ⟨r, hrecv, hr⟩
    cases e with
    | feed f allocs =>
      refine ⟨(r.feedFrame f allocs).1, ?_, r.feedFrame_noStall f allocs hr⟩
      simp only [recvStep, Stream.feedFrame, hrecv]
    | read outCap =>
      refine ⟨(r.read outCap).1, ?_, r.read_noStall outCap hr⟩
      simp only [recvStep, Stream.read, hrecv]

/-- **Completeness and no stall.** On a fresh ordered stream: once every frame `0..n`, the last one
    closing, has been fed in whatever order between whatever reads and none was refused, reading on
    with any positive sizes returns exactly the data and then the end of the stream; and after any
    feeds and reads at all, an empty ring means that the head of the heap is not the frame expected
    next, so a read that returns nothing leaves no deliverable frame behind. -/
theorem ordered_read_complete (s : Stream) (id : UInt32) (o : Obfuscator) (m c p : Nat)
    (hs : Stream.init id o m c p .ordered = .ok s) :
    (∀ (data : List Frame) (close : Frame) (es : List RecvEvent) (caps : Nat → Nat),
      Sequenced (data ++ [close]) → (∀ f ∈ data, f.closing = closingNothing) →
      close.closing ≠ closingNothing → (fedFrames es).Perm (data ++ [close]) →
      (run recvStep ⟨s, [], false⟩ es).refused = false → (∀ j, 0 < caps j) →
      ∃ k, (∀ j < k, ∃ bs, bs ≠ []
          ∧ ((readSome (run recvStep ⟨s, [], false⟩ es) caps j).stream.read (caps j)).2 = .bytes bs)
        ∧ (readSome (run recvStep ⟨s, [], false⟩ es) caps k).returned = payloads data
        ∧ ∀ outCap, ((readSome (run recvStep ⟨s, [], false⟩ es) caps k).stream.read outCap).2 = .eof)
    ∧ ∀ es : List RecvEvent, ∃ r, (run recvStep ⟨s, [], false⟩ es).stream.recv = .ordered r
      ∧ (r.recvBytes.len = 0 → ∀ h : 0 < r.heap.size, r.heap[0].seq ≠ r.nextRecvSeq)
      ∧ ∀ outCap, 0 < outCap → (r.read outCap).2 = .bytes [] →
        ∀ h : 0 < (r.read outCap).1.heap.size,
          (r.read outCap).1.heap[0].seq ≠ (r.read outCap).1.nextRecvSeq := by
  refine ⟨?_, ?_⟩
  · intro data close es caps hseq hdata hclose hperm href hcaps
    have hinv := recvInv_run hs hseq es fun f hf => hperm.subset hf
    exact readSome_complete rfl hseq hdata hclose (fun f hf => hperm.symm.subset hf) _ _ hinv href
      (Nat.le_refl _) caps hcaps
  · intro es
    obtain ⟨r, hrecv, hstall⟩ := noStall_run hs es
    refine ⟨r, hrecv, fun hlen => hstall (r.recvBytes.contents_eq_nil_iff.mpr hlen), ?_⟩
    intro outCap hpos hread
    obtain ⟨_, _, heq⟩ | ⟨hnil, _, heq⟩ | ⟨hne, heq⟩ := r.read_cases outCap
    · rw [heq] at hread
      cases hread
    · rw [heq]
      obtain h0 | hempty := List.take_eq_nil_iff.mp hnil
      · omega
      · exact hstall hempty
    · rw [heq] at hread
      exact absurd (ReadResult.bytes.inj hread) hne

/-- One data frame and its close, fed in the wrong order and read a byte at a time. -/
theorem ordered_read_complete_swapped : ∃ s,
    Stream.init 1 ⟨.none, List.replicate 32 0, rfl⟩ 270 256 4 .ordered = .ok s
      ∧ ∃ k, (readSome (run recvStep ⟨s, [], false⟩
            [.feed ⟨1, 1, closingStream, [0]⟩ ⟨true, true⟩,
              .feed ⟨1, 0, closingNothing, [7]⟩ ⟨true, true⟩]) (fun _ => 1) k).returned = [7] := by
  obtain ⟨s, hs⟩ := Stream.init_isOk 1 ⟨.none, List.replicate 32 0, rfl⟩ 270 256 4 .ordered
    (by decide) (by decide) (by decide)
  have hnone : ∀ s, Stream.init 1 ⟨.none, List.replicate 32 0, rfl⟩ 270 256 4 .ordered = .ok s →
      (run recvStep ⟨s, [], false⟩ [.feed ⟨1, 1, closingStream, [0]⟩ ⟨true, true⟩,
        .feed ⟨1, 0, closingNothing, [7]⟩ ⟨true, true⟩]).refused = false := by
    intro s hs
    have hrun : (match Stream.init 1 ⟨.none, List.replicate 32 0, rfl⟩ 270 256 4 .ordered with
        | .ok s => (run recvStep ⟨s, [], false⟩ [.feed ⟨1, 1, closingStream, [0]⟩ ⟨true, true⟩,
            .feed ⟨1, 0, closingNothing, [7]⟩ ⟨true, true⟩]).refused
        | .error _ => true) = false := by decide +kernel
    rw [hs] at hrun
    exact hrun
  obtain ⟨k, _, hret, _⟩ := (ordered_read_complete s 1 _ 270 256 4 hs).1
    [⟨1, 0, closingNothing, [7]⟩] ⟨1, 1, closingStream, [0]⟩
    [.feed ⟨1, 1, closingStream, [0]⟩ ⟨true, true⟩, .feed ⟨1, 0, closingNothing, [7]⟩ ⟨true, true⟩]
    (fun _ => 1)
    (by
      intro i f hf
      match i, hf with
      | 0, hf => rw [← Option.some.inj hf]
      | 1, hf => rw [← Option.some.inj hf])
    (by simp) (by decide) (List.Perm.swap ..) (hnone s hs) (fun _ => by decide)
  exact ⟨s, hs, k, hret⟩

end Cloak
