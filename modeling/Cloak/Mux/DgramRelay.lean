import Cloak.Lib.Run
import Cloak.Mux.Datagrams

set_option autoImplicit false

/-! # The datagram relay, from the stream to the socket (`dgram_relay.c`)

The relay holds one datagram at a time and leaves the rest in the stream's own queue. Its loop is
"flush, then fill": `pumpTurn` is one turn of it, and a turn that goes on has taken a datagram from
the queue, so the queue's length bounds the loop.

The other direction is an input: all it does to this one is end the relay. `shortReads` is not the
program's; it counts the turns in which a queued datagram did not fit the buffer. -/

namespace Cloak

open Lib

/-- What `send` on the connected socket comes to: taken, not now, this datagram never, or a socket
    that is broken. An interrupted call is made again. -/
inductive DgramSend where
  | sent
  | again
  | unsendable
  | broken
deriving DecidableEq, Repr

/-- `cloak_dgram_relay_t`. `pending` is the part of the buffer in use, `finishTimer` whether that
    timer is armed. -/
structure DgramRelay where
  stream : UnorderedRecv
  pending : List UInt8
  pendingCap : Nat
  streamEnded : Bool
  finishTimer : Bool
  done : Bool
  droppedOversize : Nat
  shortReads : Nat
deriving DecidableEq

/-- How a turn of the loop ends: with a broken socket, with nothing more to do, or with another
    datagram in hand. -/
inductive PumpTurn where
  | broken (sr : DgramRelay)
  | stop (sr : DgramRelay)
  | again (sr : DgramRelay)

namespace DgramRelay

/-- `dgram_relay_is_finishing`. -/
def isFinishing (sr : DgramRelay) : Bool := sr.done || sr.finishTimer

/-- `flush_pending`: whether the relay carries on. -/
def flushPending (sr : DgramRelay) (send : DgramSend) : DgramRelay × Bool :=
  if sr.pending = [] then (sr, true)
  else
    match send with
    | .sent => ({ sr with pending := [] }, true)
    | .again => (sr, true)
    | .unsendable => ({ sr with pending := [], droppedOversize := sr.droppedOversize + 1 }, true)
    | .broken => (sr, false)

/-- The loop's body behind the flush. -/
def fill (sr : DgramRelay) : PumpTurn :=
  match sr.stream.read sr.pendingCap with
  | (_, .shortBuffer) => .stop { sr with streamEnded := true, shortReads := sr.shortReads + 1 }
  | (_, .eof) => .stop { sr with streamEnded := true }
  | (stream, .bytes []) => .stop { sr with stream := stream }
  | (stream, .bytes bs) => .again { sr with stream := stream, pending := bs }

/-- One turn of the loop of `pump_stream_to_fd`. -/
def pumpTurn (sr : DgramRelay) (send : DgramSend) : PumpTurn :=
  match sr.flushPending send with
  | (sr, false) => .broken sr
  | (sr, true) => if sr.pending ≠ [] ∨ sr.streamEnded then .stop sr else sr.fill

/-- The loop of `pump_stream_to_fd` and the test behind it, from turn `i` on: whether the relay
    carries on. -/
def pumpLoop (sends : Nat → DgramSend) : (fuel : Nat) → (i : Nat) → DgramRelay → DgramRelay × Bool
  | 0, _, sr => (sr, true)
  | fuel + 1, i, sr =>
    match sr.pumpTurn (sends i) with
    | .broken sr => (sr, false)
    | .stop sr => (sr, !(sr.streamEnded && sr.pending.isEmpty))
    | .again sr => pumpLoop sends fuel (i + 1) sr

/-- `pump_stream_to_fd`. -/
def pumpStreamToFd (sr : DgramRelay) (sends : Nat → DgramSend) : DgramRelay × Bool :=
  pumpLoop sends (sr.stream.recvMsgs.count + 1) 0 sr

/-- `dgram_relay_teardown`; the stream's closing frame is the session's. -/
def teardown (sr : DgramRelay) : DgramRelay :=
  if sr.done then sr
  else { sr with done := true, finishTimer := false, pending := [], pendingCap := 0 }

/-- A pump whose failure ends the relay. -/
def pumpOrTeardown (sr : DgramRelay) (sends : Nat → DgramSend) : DgramRelay :=
  match sr.pumpStreamToFd sends with
  | (sr, true) => sr
  | (sr, false) => sr.teardown

/-- `cloak_dgram_relay_start` on a stream with the limit `maxPayload`, once its checks have passed: a
    relay that is over already waits for a timer to say so. -/
def start (stream : UnorderedRecv) (maxPayload : Nat) (sends : Nat → DgramSend) (timerOk : Bool) :
    DgramRelay :=
  let sr : DgramRelay :=
    { stream := stream, pending := [], pendingCap := maxPayload, streamEnded := false,
      finishTimer := false, done := false, droppedOversize := 0, shortReads := 0 }
  match sr.pumpStreamToFd sends with
  | (sr, true) => sr
  | (sr, false) => if timerOk then { sr with finishTimer := true } else sr.teardown

/-- What happens to a relay: a frame for its stream, a notification or a writable edge, the end of
    the other direction, its timer, and `cloak_dgram_relay_stop`. -/
inductive Event where
  | envelope (buf : List UInt8)
  | streamData (sends : Nat → DgramSend)
  | readFailed (sends : Nat → DgramSend)
  | finishTimer
  | stop

/-- One event. -/
def step (evp : Evp) (o : Obfuscator) (sr : DgramRelay) : Event → DgramRelay
  | .envelope buf => { sr with stream := sr.stream.feedEnvelope evp o buf }
  | .streamData sends => if sr.isFinishing then sr else sr.pumpOrTeardown sends
  | .readFailed sends => if sr.isFinishing then sr else (sr.pumpStreamToFd sends).1.teardown
  | .finishTimer => if sr.finishTimer then { sr with finishTimer := false }.teardown else sr
  | .stop => sr.teardown

variable {sr : DgramRelay} {m : List UInt8} {ms : List (List UInt8)}

/-! ## One turn -/

theorem fill_nil (h : sr.stream.Holds []) :
    sr.fill = .stop (if sr.stream.recvClosingSeen then { sr with streamEnded := true } else sr) := by
  unfold fill
  rw [h.read_nil]
  cases hseen : sr.stream.recvClosingSeen <;> simp

theorem fill_short (h : sr.stream.Holds (m :: ms)) (hm : sr.pendingCap < m.length) :
    sr.fill = .stop { sr with streamEnded := true, shortReads := sr.shortReads + 1 } := by
  unfold fill
  rw [h.read_short hm]

/-- A datagram that fits is taken from the queue. The loop takes an empty one for an empty queue. -/
theorem fill_msg (h : sr.stream.Holds (m :: ms)) (hm : m.length ≤ sr.pendingCap) :
    ∃ stream, stream.Holds ms ∧ stream.recvClosingSeen = sr.stream.recvClosingSeen
      ∧ sr.fill = if m = [] then .stop { sr with stream := stream }
        else .again { sr with stream := stream, pending := m } := by
  obtain ⟨hread, hrest, hseen⟩ := h.read_msg hm
  refine ⟨_, hrest, hseen, ?_⟩
  have heq : sr.stream.read sr.pendingCap = ((sr.stream.read sr.pendingCap).1, .bytes m) :=
    Prod.ext rfl hread
  unfold fill
  rw [heq]
  cases m with
  | nil => rfl
  | cons b bs => rfl

/-- What handing the pending datagram to the socket leaves alone. -/
structure SameStream (sr sr' : DgramRelay) : Prop where
  stream : sr'.stream = sr.stream
  pendingCap : sr'.pendingCap = sr.pendingCap
  finishTimer : sr'.finishTimer = sr.finishTimer
  done : sr'.done = sr.done
  shortReads : sr'.shortReads = sr.shortReads

theorem sameStream_flushPending (sr : DgramRelay) (send : DgramSend) :
    sr.SameStream (sr.flushPending send).1 := by
  unfold flushPending
  split
  · exact ⟨rfl, rfl, rfl, rfl, rfl⟩
  · split <;> exact ⟨rfl, rfl, rfl, rfl, rfl⟩

theorem streamEnded_flushPending (sr : DgramRelay) (send : DgramSend) :
    (sr.flushPending send).1.streamEnded = sr.streamEnded := by
  unfold flushPending
  split
  · rfl
  · split <;> rfl

theorem flushPending_nil (h : sr.pending = []) (send : DgramSend) :
    sr.flushPending send = (sr, true) := if_pos h

theorem flushPending_sent (sr : DgramRelay) :
    sr.flushPending .sent = ({ sr with pending := [] }, true) := by
  unfold flushPending
  split
  · next h => rw [← h]
  · rfl

/-! ## The loop -/

/-- What a pump does to the queue: it takes datagrams from its front. Where it carries on with none in
    hand, the queue is empty, or the last one it took was. -/
structure Pumped (sr : DgramRelay) (ms : List (List UInt8)) (res : DgramRelay × Bool)
    (ms' : List (List UInt8)) : Prop where
  holds : res.1.stream.Holds ms'
  suffix : ms' <:+ ms
  pendingCap : res.1.pendingCap = sr.pendingCap
  finishTimer : res.1.finishTimer = sr.finishTimer
  done : res.1.done = sr.done
  shortReads : (∀ m ∈ ms, m.length ≤ sr.pendingCap) → res.1.shortReads = sr.shortReads
  idle : res.2 = true → res.1.pending = [] →
    sr.streamEnded = false
      ∧ (ms' = [] ∨ ∃ pre, ms = pre ++ [] :: ms' ∧ ∀ m ∈ pre, m.length ≤ sr.pendingCap)

/-- A pump that reads nothing from the stream. -/
theorem Pumped.of_same {s : DgramRelay} {ok : Bool} (hsame : sr.SameStream s)
    (h : sr.stream.Holds ms) (hbusy : ok = true → s.pending ≠ []) : sr.Pumped ms (s, ok) ms where
  holds := by rw [hsame.stream]; exact h
  suffix := List.suffix_refl ms
  pendingCap := hsame.pendingCap
  finishTimer := hsame.finishTimer
  done := hsame.done
  shortReads := fun _ => hsame.shortReads
  idle := fun hok hnone => absurd hnone (hbusy hok)

/-- The loop after its first flush: it is over, or it goes on to read the stream. -/
theorem pumpLoop_succ (sends : Nat → DgramSend) (fuel i : Nat) (sr : DgramRelay) :
    (∃ s ok, sr.SameStream s ∧ (ok = true → s.pending ≠ []) ∧ pumpLoop sends (fuel + 1) i sr = (s, ok))
      ∨ ∃ s, sr.SameStream s ∧ s.pending = [] ∧ s.streamEnded = false ∧ sr.streamEnded = false
        ∧ pumpLoop sends (fuel + 1) i sr = match s.fill with
          | .broken s => (s, false)
          | .stop s => (s, !(s.streamEnded && s.pending.isEmpty))
          | .again s => pumpLoop sends fuel (i + 1) s := by
  have hsame := sr.sameStream_flushPending (sends i)
  have hended := sr.streamEnded_flushPending (sends i)
  rw [pumpLoop, pumpTurn]
  generalize sr.flushPending (sends i) = flushed at hsame hended
  obtain ⟨s, _ | _⟩ := flushed
  · exact .inl ⟨s, false, hsame, nofun, rfl⟩
  · by_cases hstop : s.pending ≠ [] ∨ s.streamEnded = true
    · refine .inl ⟨s, !(s.streamEnded && s.pending.isEmpty), hsame, fun hok hnone => ?_,
        by simp only [if_pos hstop]⟩
      have hover : s.streamEnded = true := by simpa [hnone] using hstop
      rw [hover, hnone] at hok
      cases hok
    · have hgo : s.pending = [] ∧ s.streamEnded = false := by simpa using hstop
      exact .inr ⟨s, hsame, hgo.1, hgo.2, hended ▸ hgo.2, by simp only [if_neg hstop]⟩

/-- A pump that stops at what it finds in the queue. -/
theorem Pumped.stop {s : DgramRelay} {ms' : List (List UInt8)} {ok : Bool} (hs : s.stream.Holds ms')
    (hsuffix : ms' <:+ ms) (hcap : s.pendingCap = sr.pendingCap)
    (hsame : s.finishTimer = sr.finishTimer ∧ s.done = sr.done)
    (hshort : (∀ m ∈ ms, m.length ≤ sr.pendingCap) → s.shortReads = sr.shortReads)
    (hidle : ok = true → sr.streamEnded = false
      ∧ (ms' = [] ∨ ∃ pre, ms = pre ++ [] :: ms' ∧ ∀ m ∈ pre, m.length ≤ sr.pendingCap)) :
    sr.Pumped ms (s, ok) ms' :=
  ⟨hs, hsuffix, hcap, hsame.1, hsame.2, hshort, fun hok _ => hidle hok⟩

/-- A pump that has taken a datagram and goes on. -/
theorem Pumped.cons {s : DgramRelay} {stream : UnorderedRecv} {ms' : List (List UInt8)}
    {res : DgramRelay × Bool} (hsame : sr.SameStream s) (hopen : sr.streamEnded = false)
    (hm : m.length ≤ sr.pendingCap)
    (hp : { s with stream := stream, pending := m }.Pumped ms res ms') :
    sr.Pumped (m :: ms) res ms' where
  holds := hp.holds
  suffix := hp.suffix.trans (List.suffix_cons m ms)
  pendingCap := hp.pendingCap.trans hsame.pendingCap
  finishTimer := hp.finishTimer.trans hsame.finishTimer
  done := hp.done.trans hsame.done
  shortReads hfit := by
    refine (hp.shortReads fun m' hm' => ?_).trans hsame.shortReads
    exact Nat.le_trans (hfit m' (List.mem_cons_of_mem m hm')) (Nat.le_of_eq hsame.pendingCap.symm)
  idle hok hnone := by
    obtain ⟨_, hms | ⟨pre, hpre, hfit⟩⟩ := hp.idle hok hnone
    · exact ⟨hopen, .inl hms⟩
    · refine ⟨hopen, .inr ⟨m :: pre, by rw [hpre, List.cons_append], ?_⟩⟩
      rw [List.forall_mem_cons]
      exact ⟨hm, fun m' hm' => Nat.le_trans (hfit m' hm') (Nat.le_of_eq hsame.pendingCap)⟩

theorem pumped_pumpLoop (sends : Nat → DgramSend) (i : Nat) (h : sr.stream.Holds ms) :
    ∃ ms', sr.Pumped ms (pumpLoop sends (ms.length + 1) i sr) ms' := by
  induction ms generalizing sr i with
  | nil =>
    obtain ⟨s, ok, hsame, hbusy, heq⟩ | ⟨s, hsame, hnone, hended, hopen, heq⟩ :=
      pumpLoop_succ sends 0 i sr
    · exact ⟨[], heq ▸ .of_same hsame h hbusy⟩
    · have hs : s.stream.Holds [] := hsame.stream ▸ h
      refine ⟨[], ?_⟩
      rw [List.length_nil, heq, fill_nil hs]
      cases s.stream.recvClosingSeen with
      | true =>
        exact .stop hs (List.suffix_refl []) hsame.pendingCap ⟨hsame.finishTimer, hsame.done⟩
          (fun _ => hsame.shortReads) (by simp [hnone])
      | false =>
        exact .stop hs (List.suffix_refl []) hsame.pendingCap ⟨hsame.finishTimer, hsame.done⟩
          (fun _ => hsame.shortReads) (fun _ => ⟨hopen, .inl rfl⟩)
  | cons m ms ih =>
    obtain ⟨s, ok, hsame, hbusy, heq⟩ | ⟨s, hsame, hnone, hended, hopen, heq⟩ :=
      pumpLoop_succ sends (ms.length + 1) i sr
    · exact ⟨m :: ms, heq ▸ .of_same hsame h hbusy⟩
    · have hs : s.stream.Holds (m :: ms) := hsame.stream ▸ h
      rw [List.length_cons, heq]
      by_cases hm : m.length ≤ s.pendingCap
      · obtain ⟨stream, hrest, hseen, hfill⟩ := fill_msg hs hm
        rw [hfill]
        rw [hsame.pendingCap] at hm
        by_cases hnil : m = []
        · subst hnil
          exact ⟨ms, .stop hrest (List.suffix_cons [] ms) hsame.pendingCap
            ⟨hsame.finishTimer, hsame.done⟩ (fun _ => hsame.shortReads)
            (fun _ => ⟨hopen, .inr ⟨[], rfl, nofun⟩⟩)⟩
        · obtain ⟨ms', hp⟩ := ih (i + 1)
            (show ({ s with stream := stream, pending := m } : DgramRelay).stream.Holds ms from hrest)
          rw [if_neg hnil]
          exact ⟨ms', hp.cons hsame hopen hm⟩
      · rw [fill_short hs (by omega)]
        exact ⟨m :: ms, .stop hs (List.suffix_refl _) hsame.pendingCap
          ⟨hsame.finishTimer, hsame.done⟩
          (fun hfit => absurd (hsame.pendingCap ▸ hfit m List.mem_cons_self) hm) (by simp [hnone])⟩

theorem pumped_pumpStreamToFd (sends : Nat → DgramSend) (h : sr.stream.Holds ms) :
    ∃ ms', sr.Pumped ms (sr.pumpStreamToFd sends) ms' := by
  rw [pumpStreamToFd, h.msgs.count]
  exact pumped_pumpLoop sends 0 h

/-- The loop on a socket that takes everything. -/
theorem pumpLoop_sent_succ (fuel i : Nat) (hopen : sr.streamEnded = false) :
    pumpLoop (fun _ => .sent) (fuel + 1) i sr = match { sr with pending := [] }.fill with
      | .broken s => (s, false)
      | .stop s => (s, !(s.streamEnded && s.pending.isEmpty))
      | .again s => pumpLoop (fun _ => .sent) fuel (i + 1) s := by
  rw [pumpLoop, pumpTurn, flushPending_sent]
  simp only
  rw [if_neg (by simp [hopen])]

/-- It stops behind the first empty datagram. -/
theorem pumpLoop_sent (i : Nat) {pre post : List (List UInt8)} (h : sr.stream.Holds (pre ++ [] :: post))
    (hopen : sr.streamEnded = false) (hfit : ∀ m ∈ pre, m.length ≤ sr.pendingCap) :
    ∃ s ms', pumpLoop (fun _ => .sent) ((pre ++ [] :: post).length + 1) i sr = (s, true)
      ∧ s.pending = [] ∧ s.stream.Holds ms' ∧ post <:+ ms' := by
  induction pre generalizing sr i with
  | nil =>
    obtain ⟨stream, hrest, _, hfill⟩ :=
      fill_msg (show ({ sr with pending := [] } : DgramRelay).stream.Holds ([] :: post) from h)
        (Nat.zero_le _)
    rw [pumpLoop_sent_succ _ i hopen, hfill]
    exact ⟨{ sr with stream := stream, pending := [] }, post, by simp [hopen], rfl, hrest,
      List.suffix_refl post⟩
  | cons m pre ih =>
    obtain ⟨stream, hrest, _, hfill⟩ :=
      fill_msg (show ({ sr with pending := [] } : DgramRelay).stream.Holds
        (m :: (pre ++ [] :: post)) from h) (hfit m List.mem_cons_self)
    rw [pumpLoop_sent_succ _ i hopen, hfill]
    by_cases hnil : m = []
    · rw [if_pos hnil]
      exact ⟨{ sr with stream := stream, pending := [] }, pre ++ [] :: post, by simp [hopen], rfl,
        hrest, (List.suffix_cons [] post).trans (List.suffix_append pre _)⟩
    · rw [if_neg hnil]
      have hnext : ({ sr with stream := stream, pending := m } : DgramRelay).stream.Holds
        (pre ++ [] :: post) := hrest
      exact ih (i + 1) hnext hopen fun m' hm' => hfit m' (List.mem_cons_of_mem m hm')

/-- No empty datagram stands before another one, as far as the buffer lets the pump read. -/
def NoneBehindEmpty (cap : Nat) (ms : List (List UInt8)) : Prop :=
  ∀ pre post, ms = pre ++ [] :: post → (∀ m ∈ pre, m.length ≤ cap) → post = []

/-- Whatever the socket does, a pump that carries on with nothing in hand leaves the queue empty:
    exactly if the stream is over or no empty datagram stands before another one. -/
theorem drains_iff (h : sr.stream.Holds ms) :
    (∀ sends, (sr.pumpStreamToFd sends).2 = true → (sr.pumpStreamToFd sends).1.pending = [] →
        (sr.pumpStreamToFd sends).1.stream.recvMsgs.count = 0)
      ↔ (sr.streamEnded = false → NoneBehindEmpty sr.pendingCap ms) := by
  constructor
  · rintro hdrains hopen pre post rfl hfit
    obtain ⟨s, ms', heq, hnone, hs, hsuffix⟩ := pumpLoop_sent 0 h hopen hfit
    have hcount := hdrains fun _ => .sent
    rw [pumpStreamToFd, h.msgs.count, heq] at hcount
    have hzero := hcount rfl hnone
    rw [hs.msgs.count, List.length_eq_zero_iff] at hzero
    rw [hzero] at hsuffix
    exact List.suffix_nil.mp hsuffix
  · intro hnone sends hok hidle
    obtain ⟨ms', hp⟩ := sr.pumped_pumpStreamToFd sends h
    obtain ⟨hopen, rfl | ⟨pre, hpre, hfit⟩⟩ := hp.idle hok hidle
    · exact hp.holds.msgs.count
    · rw [hp.holds.msgs.count, hnone hopen pre ms' hpre hfit]
      rfl

/-- A relay that starts on an open stream with nothing queued. -/
theorem start_nil {r : UnorderedRecv} (hr : r.Holds []) (hopen : r.recvClosingSeen = false)
    (maxPayload : Nat) (sends : Nat → DgramSend) (timerOk : Bool) :
    start r maxPayload sends timerOk
      = { stream := r, pending := [], pendingCap := maxPayload, streamEnded := false,
          finishTimer := false, done := false, droppedOversize := 0, shortReads := 0 } := by
  rw [start, pumpStreamToFd, hr.msgs.count, List.length_nil, pumpLoop, pumpTurn,
    flushPending_nil rfl]
  simp only
  rw [if_neg (by simp), fill_nil hr, hopen]
  rfl

/-- A pump with nothing in hand gets no further than an empty datagram. -/
theorem pump_empty (h : sr.stream.Holds ([] :: ms)) (hnone : sr.pending = [])
    (hopen : sr.streamEnded = false) (sends : Nat → DgramSend) :
    (sr.pumpStreamToFd sends).2 = true ∧ (sr.pumpStreamToFd sends).1.pending = []
      ∧ (sr.pumpStreamToFd sends).1.stream.Holds ms := by
  obtain ⟨stream, hrest, _, hfill⟩ := fill_msg h (Nat.zero_le _)
  rw [pumpStreamToFd, pumpLoop, pumpTurn, flushPending_nil hnone]
  simp only
  rw [if_neg (by simp [hnone, hopen]), hfill]
  exact ⟨by simp [hopen], hnone, hrest⟩

/-! ## Runs -/

variable {evp : Evp} {o : Obfuscator} {P : List UInt8 → Prop} {maxPayload : Nat}

/-- An event's envelope carries no datagram but one with `P`. -/
def Event.Carries (evp : Evp) (o : Obfuscator) (P : List UInt8 → Prop) : Event → Prop
  | .envelope buf => UnorderedRecv.Carries evp o P buf
  | _ => True

theorem Event.carries_any (ev : Event) : ev.Carries evp o fun _ => True := by
  cases ev with
  | envelope buf => exact fun _ _ _ => trivial
  | _ => exact trivial

@[simp] theorem stream_teardown (sr : DgramRelay) : sr.teardown.stream = sr.stream := by
  unfold teardown
  split <;> rfl

@[simp] theorem shortReads_teardown (sr : DgramRelay) : sr.teardown.shortReads = sr.shortReads := by
  unfold teardown
  split <;> rfl

@[simp] theorem done_teardown (sr : DgramRelay) : sr.teardown.done = true := by
  unfold teardown
  split
  · next h => exact h
  · rfl

/-- What the relay relies on: the queue holds datagrams with `P`, and the buffer is there. -/
structure Sound (P : List UInt8 → Prop) (maxPayload : Nat) (sr : DgramRelay) : Prop where
  queue : sr.stream.Queues P
  cap : sr.done = false → sr.pendingCap = maxPayload
  shortReads : (∀ m, P m → m.length ≤ maxPayload) → sr.shortReads = 0

theorem Sound.teardown (h : sr.Sound P maxPayload) : sr.teardown.Sound P maxPayload :=
  ⟨by simpa using h.queue, fun hdone => by simp at hdone, by simpa using h.shortReads⟩

theorem Sound.pump (h : sr.Sound P maxPayload) (hlive : sr.done = false) (sends : Nat → DgramSend) :
    (sr.pumpStreamToFd sends).1.Sound P maxPayload := by
  obtain ⟨ms, hms, hP⟩ := h.queue
  obtain ⟨ms', hp⟩ := sr.pumped_pumpStreamToFd sends hms
  refine ⟨⟨ms', hp.holds, fun m hm => hP m (hp.suffix.subset hm)⟩,
    fun _ => hp.pendingCap.trans (h.cap hlive), fun hfit => ?_⟩
  rw [hp.shortReads fun m hm => by rw [h.cap hlive]; exact hfit m (hP m hm)]
  exact h.shortReads hfit

theorem Sound.step (h : sr.Sound P maxPayload) {ev : Event} (hev : ev.Carries evp o P) :
    (sr.step evp o ev).Sound P maxPayload := by
  have hlive : ¬ sr.isFinishing = true → sr.done = false := fun hno => by
    simp only [isFinishing, Bool.or_eq_true, not_or, Bool.not_eq_true] at hno
    exact hno.1
  cases ev with
  | envelope buf => exact ⟨h.queue.feedEnvelope hev, h.cap, h.shortReads⟩
  | streamData sends =>
    rw [DgramRelay.step]
    split
    · exact h
    · next hno =>
      have hpump := h.pump (hlive hno) sends
      unfold pumpOrTeardown
      generalize sr.pumpStreamToFd sends = res at hpump
      obtain ⟨s, _ | _⟩ := res
      · exact hpump.teardown
      · exact hpump
  | readFailed sends =>
    rw [DgramRelay.step]
    split
    · exact h
    · next hno => exact (h.pump (hlive hno) sends).teardown
  | finishTimer =>
    rw [DgramRelay.step]
    split
    · exact Sound.teardown ⟨h.queue, h.cap, h.shortReads⟩
    · exact h
  | stop => exact h.teardown

theorem Sound.start {r : UnorderedRecv} (hr : r.Queues P) (maxPayload : Nat) (sends : Nat → DgramSend)
    (timerOk : Bool) :
    (DgramRelay.start r maxPayload sends timerOk).Sound P maxPayload := by
  have hfresh : Sound P maxPayload
      { stream := r, pending := [], pendingCap := maxPayload, streamEnded := false,
        finishTimer := false, done := false, droppedOversize := 0, shortReads := 0 } :=
    ⟨hr, fun _ => rfl, fun _ => rfl⟩
  have hpump := hfresh.pump rfl sends
  unfold DgramRelay.start
  simp only
  generalize DgramRelay.pumpStreamToFd _ sends = res at hpump
  obtain ⟨s, _ | _⟩ := res
  · cases timerOk with
    | true => exact ⟨hpump.queue, hpump.cap, hpump.shortReads⟩
    | false => exact hpump.teardown
  · exact hpump

/-- A relay as a run of its events leaves it. -/
def after (evp : Evp) (o : Obfuscator) (sr : DgramRelay) (evs : List Event) : DgramRelay :=
  run (DgramRelay.step evp o) sr evs

theorem Sound.after (h : sr.Sound P maxPayload) {evs : List Event}
    (hevs : ∀ ev ∈ evs, ev.Carries evp o P) : (sr.after evp o evs).Sound P maxPayload :=
  run_guarded (P := Sound P maxPayload) (fun _ _ hs hev => hs.step hev) h (obeys_of_forall hevs)

end DgramRelay

end Cloak
