import Mathlib
import Cloak.Mux.Stream

set_option autoImplicit false

/-! # The cap on reordered frames (`stream.c`, `heap_push`)

A frame passes through the heap even when it is the one the stream waits for, and the cap counts what
is in the heap. So with `max_pending_frames` frames waiting for a gap there is no place left for the
frame that fills it, and the stream that was told to hold so many of them dies of the next one.

`feedFrames_waiting` is what frames ahead of their turn do, `released_of_room` what a drain with room
in the ring leaves behind, and `reorder_cap` puts the two together. -/

namespace Cloak

open Lib

variable {r r' : OrderedRecv}

/-- No allocation fails. -/
def FeedAllocs.granted : FeedAllocs := ⟨true, true⟩

namespace OrderedRecv

/-- The stream is open and nothing it holds is due. -/
structure AtGap (r : OrderedRecv) : Prop where
  isOpen : r.recvClosingSeen = false
  ahead : ∀ pf ∈ r.heap.toList, r.nextRecvSeq < pf.seq

/-- New frames, each ahead of its turn. -/
structure Ahead (r : OrderedRecv) (ws : List Frame) : Prop where
  ahead : ∀ f ∈ ws, r.nextRecvSeq < f.seq
  nodup : (ws.map Frame.seq).Nodup
  new : ∀ f ∈ ws, f.seq ∉ r.heap.toList.map PendingFrame.seq

/-- The bytes that wait in the heap. -/
def heldBytes (r : OrderedRecv) : Nat := (r.heap.toList.map fun pf => pf.payload.length).sum

/-- Frames one after another: the state behind them and the answer to each. -/
def feedFrames (r : OrderedRecv) : List Frame → OrderedRecv × List FeedResult
  | [] => (r, [])
  | f :: fs =>
    ((feedFrames (r.feedFrame f .granted).1 fs).1,
      (r.feedFrame f .granted).2 :: (feedFrames (r.feedFrame f .granted).1 fs).2)

/-- The numbers of the data frames in the heap. -/
def dataSeqs (r : OrderedRecv) : List Nat :=
  (r.heap.toList.filter fun pf => pf.closing = closingNothing).map PendingFrame.seq

/-! ## A frame ahead of its turn -/

/-- A drain has nothing to do while nothing is due. -/
theorem tryDrain_of_ahead (fuel : Nat) (h : ∀ pf ∈ r.heap.toList, r.nextRecvSeq < pf.seq) :
    tryDrain fuel r = (r, false) := by
  cases fuel with
  | zero => rfl
  | succ fuel =>
    rw [tryDrain]
    split
    · next hpos =>
      have hlt := h _ (r.head_mem hpos)
      rw [dif_neg (by omega)]
    · rfl

/-- A frame that is neither late nor known and fits an empty ring is refused only by the cap. -/
theorem accept_eq (f : Frame) (hopen : r.recvClosingSeen = false) (hnext : r.nextRecvSeq ≤ f.seq)
    (hnew : f.seq ∉ r.heap.toList.map PendingFrame.seq) (hfits : f.payload.length ≤ r.recvBytes.cap) :
    (r.maxPendingFrames ≤ r.heap.size ∧ r.accept f .granted = none) ∨
      (r.heap.size < r.maxPendingFrames ∧ ∃ r', r.accept f .granted = some r' ∧
        r'.heap = heapPush PendingFrame.seq r.heap ⟨f.seq, f.closing, f.payload⟩ ∧
        r'.nextRecvSeq = r.nextRecvSeq ∧ r'.recvBytes = r.recvBytes ∧
        r'.maxPendingFrames = r.maxPendingFrames ∧ r'.recvClosingSeen = false) := by
  have hseen : ¬ r.recvClosingSeen = true := by rw [hopen]; exact Bool.false_ne_true
  have hcontains : ¬ r.heapContainsSeq f.seq = true := fun hc => hnew ((heapContainsSeq_iff r _).mp hc)
  have hold : ¬ (f.seq < r.nextRecvSeq ∨ r.heapContainsSeq f.seq = true) := by
    rintro (hlt | hc)
    · omega
    · exact hcontains hc
  have hbig : ¬ r.recvBytes.len + r.recvBytes.freeSpace < f.payload.length := by
    have hlen := r.recvBytes.len_le_cap
    unfold ByteQueue.freeSpace
    omega
  have hpayload : ¬ (0 < f.payload.length ∧ FeedAllocs.granted.payload = false) := fun hc => by cases hc.2
  have hgrow : ¬ (r.heap.size = r.heapCap ∧ FeedAllocs.granted.heap = false) := fun hc => by cases hc.2
  unfold accept
  rw [dif_neg hseen, dif_neg hold, dif_neg hbig, if_neg hpayload, if_neg hgrow]
  by_cases hfull : r.maxPendingFrames ≤ r.heap.size
  · exact .inl ⟨hfull, if_pos hfull⟩
  · rw [if_neg hfull]
    exact .inr ⟨Nat.lt_of_not_le hfull, _, rfl, rfl, rfl, rfl, rfl, hopen⟩

/-- A frame ahead of its turn joins those that wait, if the cap lets it. -/
theorem feedFrame_ahead (hgap : r.AtGap) (f : Frame) (hahead : r.nextRecvSeq < f.seq)
    (hnew : f.seq ∉ r.heap.toList.map PendingFrame.seq) (hfits : f.payload.length ≤ r.recvBytes.cap) :
    (r.maxPendingFrames ≤ r.heap.size ∧ (r.feedFrame f .granted).2 = .error) ∨
      (r.heap.size < r.maxPendingFrames ∧ (r.feedFrame f .granted).2 = .ok ∧
        (r.feedFrame f .granted).1.AtGap ∧
        (r.feedFrame f .granted).1.heap.toList.Perm
          (⟨f.seq, f.closing, f.payload⟩ :: r.heap.toList) ∧
        (r.feedFrame f .granted).1.nextRecvSeq = r.nextRecvSeq ∧
        (r.feedFrame f .granted).1.recvBytes = r.recvBytes ∧
        (r.feedFrame f .granted).1.maxPendingFrames = r.maxPendingFrames) := by
  rcases accept_eq f hgap.isOpen (Nat.le_of_lt hahead) hnew hfits with
    ⟨hfull, hnone⟩ | ⟨hroom, r', hsome, hheap, hnext, hring, hmax, hopen⟩
  · refine .inl ⟨hfull, ?_⟩
    rw [feedFrame, hnone]
  · have hperm : r'.heap.toList.Perm (⟨f.seq, f.closing, f.payload⟩ :: r.heap.toList) := by
      rw [hheap]
      exact heapPush_perm _ _ _
    have hahead' : ∀ pf ∈ r'.heap.toList, r'.nextRecvSeq < pf.seq := by
      intro pf hpf
      rw [hnext]
      obtain rfl | hpf := List.mem_cons.mp (hperm.subset hpf)
      · exact hahead
      · exact hgap.ahead pf hpf
    have heq : r.feedFrame f .granted = (r', .ok) := by
      rw [feedFrame, hsome]
      simp only [tryDrain_of_ahead _ hahead', Bool.false_eq_true, if_false]
    rw [heq]
    exact .inr ⟨hroom, rfl, ⟨hopen, hahead'⟩, hperm, hnext, hring, hmax⟩

/-! ## All that wait -/

/-- What is left of the frames after the first. -/
theorem Ahead.tail {f : Frame} {ws : List Frame} (h : r.Ahead (f :: ws))
    (hperm : r'.heap.toList.Perm (⟨f.seq, f.closing, f.payload⟩ :: r.heap.toList))
    (hnext : r'.nextRecvSeq = r.nextRecvSeq) : r'.Ahead ws where
  ahead := fun g hg => by rw [hnext]; exact h.ahead g (List.mem_cons_of_mem _ hg)
  nodup := (List.nodup_cons.mp h.nodup).2
  new := fun g hg hmem => by
    rcases List.mem_cons.mp ((hperm.map PendingFrame.seq).subset hmem) with heq | hmem
    · exact (List.nodup_cons.mp h.nodup).1 (List.mem_map.mpr ⟨g, hg, heq⟩)
    · exact h.new g (List.mem_cons_of_mem _ hg) hmem

/-- What waiting frames become in the heap. -/
def pendings (ws : List Frame) : List PendingFrame :=
  ws.map fun f => ⟨f.seq, f.closing, f.payload⟩

/-- Frames ahead of their turn are all taken if there are none, or if the heap can hold them, and
    then they are what it holds more. -/
theorem feedFrames_waiting (ws : List Frame) (r : OrderedRecv) (hgap : r.AtGap) (hws : r.Ahead ws)
    (hfits : ∀ f ∈ ws, f.payload.length ≤ r.recvBytes.cap) :
    ((∀ res ∈ (r.feedFrames ws).2, res ≠ .error) ↔
      ws = [] ∨ r.heap.size + ws.length ≤ r.maxPendingFrames) ∧
      ((∀ res ∈ (r.feedFrames ws).2, res ≠ .error) →
        (r.feedFrames ws).1.AtGap ∧
        (r.feedFrames ws).1.heap.toList.Perm (pendings ws ++ r.heap.toList) ∧
        (r.feedFrames ws).1.nextRecvSeq = r.nextRecvSeq ∧
        (r.feedFrames ws).1.recvBytes = r.recvBytes ∧
        (r.feedFrames ws).1.maxPendingFrames = r.maxPendingFrames) := by
  induction ws generalizing r with
  | nil =>
    refine ⟨⟨fun _ => .inl rfl, fun _ _ hres => absurd hres List.not_mem_nil⟩, fun _ => ?_⟩
    exact ⟨hgap, List.Perm.refl _, rfl, rfl, rfl⟩
  | cons f ws ih =>
    rcases feedFrame_ahead hgap f (hws.ahead f List.mem_cons_self) (hws.new f List.mem_cons_self)
        (hfits f List.mem_cons_self) with
      ⟨hfull, herr⟩ | ⟨hroom, hok, hgap', hperm, hnext, hring, hmax⟩
    · have hrefused : ¬ ∀ res ∈ (r.feedFrames (f :: ws)).2, res ≠ .error :=
        fun hall => hall _ List.mem_cons_self herr
      refine ⟨⟨fun hall => absurd hall hrefused, fun hle => ?_⟩, fun hall => absurd hall hrefused⟩
      rcases hle with hnil | hle
      · cases hnil
      · rw [List.length_cons] at hle
        omega
    · have hsize : (r.feedFrame f .granted).1.heap.size = r.heap.size + 1 := by
        have hlen := hperm.length_eq
        rwa [List.length_cons, Array.length_toList, Array.length_toList] at hlen
      have hfits' : ∀ g ∈ ws, g.payload.length ≤ (r.feedFrame f .granted).1.recvBytes.cap := by
        intro g hg
        rw [hring]
        exact hfits g (List.mem_cons_of_mem _ hg)
      obtain ⟨hiff, hstate⟩ := ih _ hgap' (hws.tail hperm hnext) hfits'
      have hsplit : (∀ res ∈ (r.feedFrames (f :: ws)).2, res ≠ .error) ↔
          ∀ res ∈ ((r.feedFrame f .granted).1.feedFrames ws).2, res ≠ .error := by
        simp only [feedFrames, List.forall_mem_cons, hok]
        exact and_iff_right fun hc => by cases hc
      rw [hsplit]
      refine ⟨hiff.trans ?_, fun hall => ?_⟩
      · rw [hsize, hmax, List.length_cons]
        constructor
        · rintro (rfl | hle)
          · exact .inr hroom
          · exact .inr (by omega)
        · rintro (hnil | hle)
          · cases hnil
          · exact .inr (by omega)
      · obtain ⟨hgap'', hperm'', hnext'', hring'', hmax''⟩ := hstate hall
        refine ⟨hgap'', ?_, hnext''.trans hnext, hring''.trans hring, hmax''.trans hmax⟩
        refine hperm''.trans ?_
        refine (hperm.append_left (pendings ws)).trans ?_
        exact List.perm_middle

/-! ## The frame that fills the gap -/

/-- A drain with room in the ring for all that waits leaves nothing due. -/
theorem tryDrain_of_room (fuel : Nat) (r : OrderedRecv) (hfuel : r.heap.size ≤ fuel)
    (hroom : r.heldBytes ≤ r.recvBytes.freeSpace) :
    ∀ pf ∈ (tryDrain fuel r).1.heap.toList, (tryDrain fuel r).1.nextRecvSeq < pf.seq := by
  induction fuel generalizing r with
  | zero =>
    intro pf hpf
    have hnil : r.heap.toList = [] := List.length_eq_zero_iff.mp (by rw [Array.length_toList]; omega)
    rw [tryDrain, hnil] at hpf
    cases hpf
  | succ fuel ih =>
    rw [tryDrain]
    split
    · next hpos =>
      have hperm := heapPop_perm PendingFrame.seq r.heap hpos
      split
      · next hseq =>
        have hlater : ∀ pf ∈ (heapPop PendingFrame.seq r.heap hpos).toList, r.nextRecvSeq < pf.seq :=
          fun pf hpf => r.next_lt_of_mem_heapPop hpos hseq hpf
        have hsum : r.heldBytes = r.heap[0].payload.length +
            ((heapPop PendingFrame.seq r.heap hpos).toList.map fun pf => pf.payload.length).sum := by
          rw [heldBytes, ← (hperm.map fun pf : PendingFrame => pf.payload.length).sum_nat,
            List.map_cons, List.sum_cons]
        split
        · exact hlater
        · split
          · next hfull => omega
          · next hfull =>
            have hsize := size_heapPop PendingFrame.seq r.heap hpos
            refine ih (r.deliverHead hpos hseq) ?_ ?_
            · change (heapPop PendingFrame.seq r.heap hpos).size ≤ fuel
              omega
            · have hclosed : r.recvBytes.closed = false := by
                rw [r.closed_eq]
                cases hseen : r.recvClosingSeen with
                | false => rfl
                | true => exact absurd (r.closed_lt hseen _ (r.head_mem hpos)) (by omega)
              have hlen := r.recvBytes.len_write r.heap[0].payload hclosed (Nat.not_lt.mp hfull)
              have hcap := r.recvBytes.cap_write r.heap[0].payload
              change ((heapPop PendingFrame.seq r.heap hpos).toList.map
                fun pf => pf.payload.length).sum ≤ (r.recvBytes.write r.heap[0].payload).1.freeSpace
              unfold ByteQueue.freeSpace at *
              omega
      · next hseq =>
        intro pf hpf
        have hroot := r.heap_ordered.root_le_of_mem hpos (Array.mem_toList_iff.mp hpf)
        have hle := r.next_le _ (r.head_mem hpos)
        change r.nextRecvSeq < pf.seq
        omega
    · next hpos =>
      intro pf hpf
      have hnil : r.heap.toList = [] := List.length_eq_zero_iff.mp (by rw [Array.length_toList]; omega)
      rw [hnil] at hpf
      cases hpf

/-- A drain passes no data frame over. -/
theorem mem_or_lt_of_tryDrain (fuel : Nat) (r : OrderedRecv) :
    r.nextRecvSeq ≤ (tryDrain fuel r).1.nextRecvSeq ∧
      ∀ n ∈ r.dataSeqs, n ∈ (tryDrain fuel r).1.dataSeqs ∨ n < (tryDrain fuel r).1.nextRecvSeq := by
  refine tryDrain_induction
    (P := fun r' => r.nextRecvSeq ≤ r'.nextRecvSeq ∧
      ∀ n ∈ r.dataSeqs, n ∈ r'.dataSeqs ∨ n < r'.nextRecvSeq) ?_ ?_ fuel r
    ⟨Nat.le_refl _, fun _ hn => .inl hn⟩
  · rintro r' hpos hseq ⟨hle, hdata⟩ - -
    refine ⟨Nat.le_succ_of_le hle, fun n hn => ?_⟩
    rcases hdata n hn with hmem | hlt
    · obtain ⟨pf, hpf, rfl⟩ := List.mem_map.mp hmem
      obtain ⟨hpf, hclosing⟩ := List.mem_filter.mp hpf
      rcases List.mem_cons.mp ((heapPop_perm PendingFrame.seq r'.heap hpos).symm.subset hpf) with
        rfl | hrest
      · refine .inr ?_
        change r'.heap[0].seq < r'.nextRecvSeq + 1
        omega
      · exact .inl (List.mem_map_of_mem (List.mem_filter.mpr ⟨hrest, hclosing⟩))
    · exact .inr (Nat.lt_succ_of_lt hlt)
  · rintro r' hpos hseq ⟨hle, hdata⟩ hclose
    refine ⟨hle, fun n hn => ?_⟩
    rcases hdata n hn with hmem | hlt
    · obtain ⟨pf, hpf, rfl⟩ := List.mem_map.mp hmem
      obtain ⟨hpf, hclosing⟩ := List.mem_filter.mp hpf
      rcases List.mem_cons.mp ((heapPop_perm PendingFrame.seq r'.heap hpos).symm.subset hpf) with
        rfl | hrest
      · exact absurd (of_decide_eq_true hclosing) hclose
      · exact .inl (List.mem_map_of_mem (List.mem_filter.mpr ⟨hrest, hclosing⟩))
    · exact .inr hlt

/-- With room in the ring, a drain delivers every number up to which all data frames are there. -/
theorem lt_of_tryDrain (fuel : Nat) (r : OrderedRecv) (hfuel : r.heap.size ≤ fuel)
    (hroom : r.heldBytes ≤ r.recvBytes.freeSpace) (n : Nat)
    (hall : ∀ q, r.nextRecvSeq ≤ q → q ≤ n → q ∈ r.dataSeqs) :
    n < (tryDrain fuel r).1.nextRecvSeq := by
  by_contra hno
  obtain ⟨hle, hdata⟩ := mem_or_lt_of_tryDrain fuel r
  rcases hdata _ (hall _ hle (Nat.le_of_not_lt hno)) with hmem | hlt
  · -- the frame that is due next would still be in the heap
    obtain ⟨pf, hpf, hseq⟩ := List.mem_map.mp hmem
    have hlt := tryDrain_of_room fuel r hfuel hroom pf (List.mem_filter.mp hpf).1
    omega
  · exact Nat.lt_irrefl _ hlt

/-- The numbers of the data frames of a list. -/
def dataSeqsOf (fs : List Frame) : List Nat :=
  (fs.filter fun f => f.closing = closingNothing).map Frame.seq

theorem mem_dataSeqs_of_perm {fs : List Frame} {n : Nat}
    (hperm : r'.heap.toList.Perm (pendings fs ++ r.heap.toList)) :
    n ∈ r'.dataSeqs ↔ n ∈ dataSeqsOf fs ∨ n ∈ r.dataSeqs := by
  have heq : ∀ f : Frame, (PendingFrame.mk f.seq f.closing f.payload).seq = f.seq := fun _ => rfl
  rw [dataSeqs, ((hperm.filter _).map PendingFrame.seq).mem_iff, List.filter_append, List.map_append,
    List.mem_append]
  refine or_congr ?_ Iff.rfl
  simp [pendings, dataSeqsOf, List.filter_map, Function.comp_def]

/-- The frame whose turn it is, fed to a stream with room in its ring: taken exactly when the heap has
    a place for it, and then everything up to the next gap is delivered. -/
theorem feedFrame_due (hgap : r.AtGap) (g : Frame) (hg : g.seq = r.nextRecvSeq)
    (hroom : r.heldBytes + g.payload.length ≤ r.recvBytes.freeSpace) :
    ((r.feedFrame g .granted).2 ≠ .error ↔ r.heap.size < r.maxPendingFrames) ∧
      (r.heap.size < r.maxPendingFrames → ∀ n,
        (∀ q, r.nextRecvSeq ≤ q → q ≤ n → q ∈ dataSeqsOf [g] ∨ q ∈ r.dataSeqs) →
        n < (r.feedFrame g .granted).1.nextRecvSeq) := by
  have hnew : g.seq ∉ r.heap.toList.map PendingFrame.seq := by
    intro hmem
    obtain ⟨pf, hpf, hseq⟩ := List.mem_map.mp hmem
    have hlt := hgap.ahead pf hpf
    omega
  have hfits : g.payload.length ≤ r.recvBytes.cap := by
    have hlen := r.recvBytes.len_le_cap
    unfold ByteQueue.freeSpace at hroom
    omega
  rcases accept_eq g hgap.isOpen (Nat.le_of_eq hg.symm) hnew hfits with
    ⟨hfull, hnone⟩ | ⟨hplace, r', hsome, hheap, hnext, hring, -, -⟩
  · have herr : (r.feedFrame g .granted).2 = .error := by rw [feedFrame, hnone]
    exact ⟨⟨fun hok => absurd herr hok, fun hlt => absurd hlt (Nat.not_lt.mpr hfull)⟩,
      fun hlt => absurd hlt (Nat.not_lt.mpr hfull)⟩
  · have hperm : r'.heap.toList.Perm (pendings [g] ++ r.heap.toList) := by
      rw [hheap]
      exact heapPush_perm _ _ _
    have hheld : r'.heldBytes ≤ r'.recvBytes.freeSpace := by
      have hsum := (hperm.map fun pf : PendingFrame => pf.payload.length).sum_nat
      have heq : r'.heldBytes = g.payload.length + r.heldBytes := hsum
      rw [heq, hring]
      omega
    have hfeed : r.feedFrame g .granted =
        ((tryDrain r'.heap.size r').1, if (tryDrain r'.heap.size r').2 then .closed else .ok) := by
      rw [feedFrame, hsome]
    refine ⟨⟨fun _ => hplace, fun _ => ?_⟩, fun _ n hall => ?_⟩
    · rw [hfeed]
      dsimp only
      split <;> exact fun hc => by cases hc
    · rw [hfeed]
      refine lt_of_tryDrain _ r' (Nat.le_refl _) hheld n fun q hq hqn => ?_
      rw [hnext] at hq
      exact (mem_dataSeqs_of_perm hperm).mpr (hall q hq hqn)

end OrderedRecv

/-! ## The cap -/

namespace Stream

/-- Frames one after another: the stream behind them and the answer to each. -/
def feedFrames (s : Stream) : List Frame → Stream × List FeedResult
  | [] => (s, [])
  | f :: fs =>
    ((feedFrames (s.feedFrame f .granted).1 fs).1,
      (s.feedFrame f .granted).2 :: (feedFrames (s.feedFrame f .granted).1 fs).2)

theorem feedFrames_ordered (ws : List Frame) {s : Stream} {r : OrderedRecv}
    (hrecv : s.recv = .ordered r) :
    (s.feedFrames ws).1.recv = .ordered (r.feedFrames ws).1 ∧
      (s.feedFrames ws).2 = (r.feedFrames ws).2 := by
  induction ws generalizing s r with
  | nil => exact ⟨hrecv, rfl⟩
  | cons f ws ih =>
    have hstep : (s.feedFrame f .granted).1.recv = .ordered (r.feedFrame f .granted).1 := by
      rw [feedFrame, hrecv]
    have hres : (s.feedFrame f .granted).2 = (r.feedFrame f .granted).2 := by
      rw [feedFrame, hrecv]
    obtain ⟨hrest, hanswers⟩ := ih hstep
    exact ⟨hrest, by rw [feedFrames, OrderedRecv.feedFrames, hres, hanswers]⟩

/-- The frames `ws` are all taken while they wait for `g`, then `g` is taken, and everything up to
    the first number that has not come as data is delivered. -/
structure FillsGap (s : Stream) (r : OrderedRecv) (ws : List Frame) (g : Frame) : Prop where
  waiting : ∀ res ∈ (s.feedFrames ws).2, res ≠ .error
  filled : ((s.feedFrames ws).1.feedFrame g .granted).2 ≠ .error
  released : ∀ r', ((s.feedFrames ws).1.feedFrame g .granted).1.recv = .ordered r' → ∀ n,
    (∀ q, r.nextRecvSeq ≤ q → q ≤ n →
      q ∈ OrderedRecv.dataSeqsOf (g :: ws) ∨ q ∈ r.dataSeqs) → n < r'.nextRecvSeq

/-- With room in the receive queue for all of them, frames that wait for a gap and the frame that
    fills it go through exactly when those that wait are fewer than the cap. -/
theorem reorder_cap (s : Stream) (r : OrderedRecv) (hrecv : s.recv = .ordered r) (hgap : r.AtGap)
    (ws : List Frame) (hws : r.Ahead ws) (g : Frame) (hg : g.seq = r.nextRecvSeq)
    (hroom : r.heldBytes + ((g :: ws).map fun f => f.payload.length).sum ≤ r.recvBytes.freeSpace) :
    s.FillsGap r ws g ↔ r.heap.size + ws.length < r.maxPendingFrames := by
  rw [List.map_cons, List.sum_cons] at hroom
  have hfits : ∀ f ∈ ws, f.payload.length ≤ r.recvBytes.cap := by
    intro f hf
    have hle := List.le_sum_of_mem (List.mem_map_of_mem (f := fun f : Frame => f.payload.length) hf)
    unfold ByteQueue.freeSpace at hroom
    omega
  obtain ⟨hiff, hstate⟩ := OrderedRecv.feedFrames_waiting ws r hgap hws hfits
  obtain ⟨hrecv', hanswers⟩ := feedFrames_ordered ws hrecv
  have hfeed : (s.feedFrames ws).1.feedFrame g .granted =
      ({ (s.feedFrames ws).1 with recv := .ordered ((r.feedFrames ws).1.feedFrame g .granted).1 },
        ((r.feedFrames ws).1.feedFrame g .granted).2) := by
    rw [feedFrame, hrecv']
  by_cases hall : ∀ res ∈ (r.feedFrames ws).2, res ≠ .error
  · obtain ⟨hgap', hperm, hnext, hring, hmax⟩ := hstate hall
    have hsize : (r.feedFrames ws).1.heap.size = r.heap.size + ws.length := by
      have hlen := hperm.length_eq
      simpa [OrderedRecv.pendings, Nat.add_comm] using hlen
    have hheld : (r.feedFrames ws).1.heldBytes =
        (ws.map fun f => f.payload.length).sum + r.heldBytes := by
      have hsum := (hperm.map fun pf : PendingFrame => pf.payload.length).sum_nat
      rw [List.map_append, List.sum_append, OrderedRecv.pendings, List.map_map] at hsum
      exact hsum
    obtain ⟨hdue, hdelivered⟩ := OrderedRecv.feedFrame_due hgap' g (by rw [hg, hnext])
      (by rw [hheld, hring]; omega)
    rw [hsize, hmax] at hdue hdelivered
    constructor
    · intro h
      have hfilled := h.filled
      rw [hfeed] at hfilled
      exact hdue.mp hfilled
    · intro hlt
      refine ⟨?_, ?_, ?_⟩
      · rw [hanswers]
        exact hall
      · rw [hfeed]
        exact hdue.mpr hlt
      · intro r' hr' n hn
        rw [hfeed] at hr'
        obtain rfl := Recv.ordered.inj hr'
        refine hdelivered hlt n fun q hq hqn => ?_
        rw [hnext] at hq
        rw [OrderedRecv.mem_dataSeqs_of_perm hperm]
        have hmem := hn q hq hqn
        rw [OrderedRecv.dataSeqsOf, ← List.singleton_append, List.filter_append, List.map_append,
          List.mem_append] at hmem
        exact or_assoc.mp hmem
  · constructor
    · intro h
      have hwaiting := h.waiting
      rw [hanswers] at hwaiting
      exact absurd hwaiting hall
    · intro hlt
      exact absurd (hiff.mpr (.inr (Nat.le_of_lt hlt))) hall

/-- What a stream that has just been set up can take. -/
theorem init_atGap {id : UInt32} {o : Obfuscator} {m c p : Nat} {s : Stream}
    (h : Stream.init id o m c p .ordered = .ok s) :
    ∃ r, s.recv = .ordered r ∧ r.AtGap ∧ r.heap = #[] ∧ r.nextRecvSeq = 0 ∧
      r.recvBytes.freeSpace = c ∧ r.maxPendingFrames = if 0 < p then p else 1 := by
  unfold Stream.init at h
  rw [if_neg (by decide)] at h
  split at h
  · cases h
  · split at h
    · cases h
    · split at h
      · cases h
      · next recv hrecv =>
        obtain rfl := Except.ok.inj h
        simp only [Stream.initRecv] at hrecv
        split at hrecv
        · cases hrecv
        · next q hq =>
          obtain rfl := Option.some.inj hrecv
          obtain ⟨hempty, hopen, hcap⟩ := ByteQueue.init_spec hq
          have hlen := q.contents_eq_nil_iff.mp hempty
          refine ⟨_, rfl, ⟨rfl, by simp [OrderedRecv.fresh]⟩, rfl, rfl, ?_, rfl⟩
          change q.cap - q.len = c
          omega

/-- A cap of two, one frame in wait, and the one it waits for. -/
theorem reorder_cap_two : ∃ s r,
    Stream.init 1 ⟨.none, List.replicate 32 0, rfl⟩ 270 256 2 .ordered = .ok s ∧
    s.recv = .ordered r ∧ s.FillsGap r [⟨1, 1, closingNothing, [8]⟩] ⟨1, 0, closingNothing, [7]⟩ := by
  obtain ⟨s, hs⟩ := Stream.init_isOk 1 ⟨.none, List.replicate 32 0, rfl⟩ 270 256 2 .ordered
    (by decide) (by decide) (by decide)
  obtain ⟨r, hrecv, hgap, hheap, hnext, hfree, hmax⟩ := init_atGap hs
  have hsize : r.heap.size = 0 := by rw [hheap]; rfl
  have hheld : r.heldBytes = 0 := by rw [OrderedRecv.heldBytes, hheap]; rfl
  refine ⟨s, r, hs, hrecv, (reorder_cap s r hrecv hgap _
    ⟨?_, by simp, ?_⟩ _ hnext.symm ?_).mpr ?_⟩
  · intro f hf
    rw [List.mem_singleton.mp hf, hnext]
    exact Nat.zero_lt_one
  · intro f _
    rw [hheap]
    exact List.not_mem_nil
  · rw [hheld, hfree]
    decide
  · rw [hsize, hmax]
    decide

/-- With a cap of one, one frame may wait for the gap, and the frame that fills it is refused. -/
theorem gap_refused_at_cap : ∃ s r,
    Stream.init 1 ⟨.none, List.replicate 32 0, rfl⟩ 270 256 1 .ordered = .ok s ∧
    s.recv = .ordered r ∧ r.maxPendingFrames = 1 ∧
    r.AtGap ∧ r.Ahead [⟨1, 1, closingNothing, [8]⟩] ∧
    (∀ res ∈ (s.feedFrames [⟨1, 1, closingNothing, [8]⟩]).2, res ≠ .error) ∧
    ((s.feedFrames [⟨1, 1, closingNothing, [8]⟩]).1.feedFrame
      ⟨1, 0, closingNothing, [7]⟩ .granted).2 = .error ∧
    ¬ s.FillsGap r [⟨1, 1, closingNothing, [8]⟩] ⟨1, 0, closingNothing, [7]⟩ := by
  obtain ⟨s, hs⟩ := Stream.init_isOk 1 ⟨.none, List.replicate 32 0, rfl⟩ 270 256 1 .ordered
    (by decide) (by decide) (by decide)
  obtain ⟨r, hrecv, hgap, hheap, hnext, hfree, hmax⟩ := init_atGap hs
  have hrun : (match Stream.init 1 ⟨.none, List.replicate 32 0, rfl⟩ 270 256 1 .ordered with
      | .ok s => ((s.feedFrames [⟨1, 1, closingNothing, [8]⟩]).2,
          ((s.feedFrames [⟨1, 1, closingNothing, [8]⟩]).1.feedFrame
            ⟨1, 0, closingNothing, [7]⟩ .granted).2)
      | .error _ => ([], .ok)) = ([.ok], .error) := by decide +kernel
  rw [hs] at hrun
  obtain ⟨hwaiting, hrefused⟩ := Prod.mk.inj hrun
  refine ⟨s, r, hs, hrecv, hmax, hgap, ⟨?_, by simp, ?_⟩, ?_, hrefused,
    fun h => h.filled hrefused⟩
  · intro f hf
    rw [List.mem_singleton.mp hf, hnext]
    exact Nat.zero_lt_one
  · intro f _
    rw [hheap]
    exact List.not_mem_nil
  · rw [hwaiting]
    decide

end Stream

end Cloak
