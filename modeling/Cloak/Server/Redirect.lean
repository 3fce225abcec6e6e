import Cloak.Common.PlainRelay
import Cloak.Server.FirstPacket

set_option autoImplicit false

/-! # Redirecting a connection (`dispatcher.c`)

A connection whose first packet is refused, or does not authenticate, is relayed to the cover site:
`conn_start_redirect` dials it, and `on_dial_done` starts a relay that is preloaded with what the
first-packet reader kept. `consumed` records what the reader took out of the socket, which nothing
reads. Whether a complete packet authenticates comes with the event, and a relay that was started
stays in the model when it is done. -/

namespace Cloak

/-- `CLOAK_DISPATCHER_DEFAULT_RELAY_BUF_CAP`. -/
def dispatcherDefaultRelayBufCap : Nat := 16384

/-- The buffer capacity that `cloak_dispatcher_init` settles on, unless it refuses the one given. -/
def dispatcherRelayBufCap (relayBufCap : Nat) : Option Nat :=
  if relayBufCap ≠ 0 ∧ relayBufCap < firstPacketMax then none
  else some (if relayBufCap = 0 then dispatcherDefaultRelayBufCap else relayBufCap)

/-- Where a connection is. `replying` is one that authenticated. -/
inductive RedirectPhase where
  | reading
  | replying
  | dialing
  | relaying (rl : PlainRelay)
  | gone

/-- A connection as far as the redirect path goes. -/
structure RedirectConn where
  fd : Nat
  fp : FirstPacket
  phase : RedirectPhase
  consumed : List UInt8

/-- Whether the first packet, once complete, authenticates, and whether the cover site can be
    dialed. -/
structure FirstPacketAnswers where
  authenticates : Bool
  dialStarts : Bool

/-- What happens to a connection. -/
inductive RedirectEvent where
  | readable (reads : List ReadAnswer) (answers : FirstPacketAnswers)
  | deadline
  | dialDone (fd : Option Nat) (memA memB addA addB : Bool)
  | relay (e : PlainRelay.Event)

namespace RedirectConn

/-- `cloak_dispatcher_accept`. -/
def accept (fd : Nat) : RedirectConn := ⟨fd, .init, .reading, []⟩

/-- `conn_start_redirect`. -/
def startRedirect (c : RedirectConn) (answers : FirstPacketAnswers) : RedirectConn :=
  { c with phase := if answers.dialStarts then .dialing else .gone }

/-- The bytes of one `read` go to the reader. -/
def feed (c : RedirectConn) (bs : List UInt8) : RedirectConn :=
  { c with fp := c.fp.feed bs, consumed := c.consumed ++ bs }

/-- The loop of `on_readable` while the first packet is read. -/
def readFirst (answers : FirstPacketAnswers) : List ReadAnswer → RedirectConn → RedirectConn
  | [], c => c
  | answer :: reads, c =>
    if c.fp.want = 0 then c
    else
      match answer with
      | .data bs =>
        if bs.take c.fp.want = [] then { c with phase := .gone }
        else
          match (c.feed (bs.take c.fp.want)).fp.status with
          | .done =>
            if answers.authenticates then { c.feed (bs.take c.fp.want) with phase := .replying }
            else (c.feed (bs.take c.fp.want)).startRedirect answers
          | .error => (c.feed (bs.take c.fp.want)).startRedirect answers
          | .needMore => readFirst answers reads (c.feed (bs.take c.fp.want))
      | .intr => readFirst answers reads c
      | .again => c
      | .failed => { c with phase := .gone }

/-- `on_dial_done`. -/
def onDialDone (cap : Nat) (c : RedirectConn) (fd : Option Nat) (memA memB addA addB : Bool) :
    RedirectConn :=
  match fd with
  | none => { c with phase := .gone }
  | some fd =>
    match PlainRelay.start c.fd fd c.fp.buf cap memA memB addA addB with
    | none => { c with phase := .gone }
    | some rl => { c with phase := .relaying rl }

/-- Each event has its handler in one phase only. -/
def step (cap : Nat) (c : RedirectConn) (e : RedirectEvent) : RedirectConn :=
  match c.phase, e with
  | .reading, .readable reads answers => readFirst answers reads c
  | .reading, .deadline => { c with phase := .gone }
  | .dialing, .dialDone fd memA memB addA addB => c.onDialDone cap fd memA memB addA addB
  | .relaying rl, .relay e => { c with phase := .relaying (rl.step e) }
  | _, _ => c

/-- All that was read from the client so far. -/
def clientRead (c : RedirectConn) : List UInt8 :=
  match c.phase with
  | .relaying rl => c.consumed ++ PlainRelay.readFrom .a rl.io
  | _ => c.consumed

/-- The hand-over lost, repeated and inserted nothing, and at every moment since, what was sent to
    the cover site is a prefix of what was read from the client. -/
def Transparent (c : RedirectConn) (rl : PlainRelay) : Prop :=
  c.fp.buf = c.consumed ∧
    ∀ h, h <+: rl.io → PlainRelay.sentTo .b h <+: c.consumed ++ PlainRelay.readFrom .a h

/-- What every event keeps. -/
def Kept (c : RedirectConn) : Prop :=
  match c.phase with
  | .reading => c.fp.status = .needMore ∧ c.fp.Reading c.consumed
  | .dialing => c.fp.Ended c.consumed ∧ c.consumed ≠ []
  | .relaying rl => c.fp.Ended c.consumed ∧ c.consumed ≠ [] ∧ rl.Running c.fp.buf
  | .replying => True
  | .gone => True

theorem accept_kept (fd : Nat) : (accept fd).Kept := ⟨rfl, FirstPacket.init_reading⟩

variable {c : RedirectConn}

theorem startRedirect_kept (answers : FirstPacketAnswers) (h : c.fp.Ended c.consumed)
    (hne : c.consumed ≠ []) : (c.startRedirect answers).Kept := by
  unfold startRedirect Kept
  cases answers.dialStarts with
  | true => exact ⟨h, hne⟩
  | false => exact trivial

theorem readFirst_kept (answers : FirstPacketAnswers) (reads : List ReadAnswer)
    (hphase : c.phase = .reading) (h : c.Kept) : (readFirst answers reads c).Kept := by
  induction reads generalizing c with
  | nil => exact h
  | cons answer reads ih =>
    unfold readFirst
    split
    · exact h
    · rw [Kept, hphase] at h
      obtain ⟨hstatus, hreading⟩ := h
      have hsame : c.Kept := by
        rw [Kept, hphase]
        exact ⟨hstatus, hreading⟩
      cases answer with
      | intr => exact ih hphase hsame
      | again => exact hsame
      | failed => exact trivial
      | data bs =>
        dsimp only
        split
        · exact trivial
        · rename_i hne
          have hfeed : (c.feed (bs.take c.fp.want)).fp.Consistent
              (c.feed (bs.take c.fp.want)).consumed :=
            hreading.feed hstatus hne (List.length_take_le _ _)
          have hconsumed : (c.feed (bs.take c.fp.want)).consumed ≠ [] := by
            simp only [feed, ne_eq, List.append_eq_nil_iff, not_and]
            exact fun _ => hne
          cases hs : (c.feed (bs.take c.fp.want)).fp.status with
          | done =>
            dsimp only
            split
            · exact trivial
            · exact startRedirect_kept answers (hfeed.ended (by simp [hs])) hconsumed
          | error => exact startRedirect_kept answers (hfeed.ended (by simp [hs])) hconsumed
          | needMore =>
            refine ih hphase ?_
            rw [Kept, show (c.feed (bs.take c.fp.want)).phase = .reading from hphase]
            exact ⟨hs, hfeed.reading hs⟩

theorem onDialDone_kept (cap : Nat) (fd : Option Nat) (memA memB addA addB : Bool)
    (h : c.fp.Ended c.consumed) (hne : c.consumed ≠ []) :
    (c.onDialDone cap fd memA memB addA addB).Kept := by
  unfold onDialDone
  cases fd with
  | none => exact trivial
  | some fd =>
    dsimp only
    cases hstart : PlainRelay.start c.fd fd c.fp.buf cap memA memB addA addB with
    | none => exact trivial
    | some rl => exact ⟨h, hne, (PlainRelay.start_running hstart).2.2⟩

theorem Kept.step (h : c.Kept) (cap : Nat) (e : RedirectEvent) : (c.step cap e).Kept := by
  unfold RedirectConn.step
  split
  · rename_i reads answers hphase
    exact readFirst_kept answers reads hphase h
  · exact trivial
  · rename_i fd memA memB addA addB hphase
    rw [Kept, hphase] at h
    exact onDialDone_kept cap fd memA memB addA addB h.1 h.2
  · rename_i rl e hphase
    rw [Kept, hphase] at h
    exact ⟨h.1, h.2.1, h.2.2.step e⟩
  · exact h

theorem Kept.transparent_iff {rl : PlainRelay} {stream : List UInt8} (h : c.Kept)
    (hphase : c.phase = .relaying rl) (hstream : c.clientRead <+: stream) :
    c.Transparent rl ↔ FirstPacket.Fits stream := by
  rw [Kept, hphase] at h
  obtain ⟨hended, hne, hrun⟩ := h
  rw [clientRead, hphase] at hstream
  rw [← hended.kept_iff ((List.prefix_append _ _).trans hstream) hne]
  refine ⟨fun ht => ht.1, fun hkept => ⟨hkept, fun h hh => ?_⟩⟩
  have hsafe := hrun.safe h hh .b
  rwa [PlainRelay.owed, if_pos rfl, hkept] at hsafe

theorem dispatcherRelayBufCap_le {relayBufCap cap : Nat}
    (h : dispatcherRelayBufCap relayBufCap = some cap) : firstPacketMax ≤ cap := by
  unfold dispatcherRelayBufCap at h
  split at h
  · cases h
  · rename_i hcap
    obtain rfl := Option.some.inj h
    split
    · decide
    · omega

/-- In every run of a connection that is redirected, the redirect is transparent exactly if the
    client's stream fits the first-packet reader. The relay is never refused for its preload. -/
theorem redirect_transparent_iff {relayBufCap cap : Nat}
    (hcap : dispatcherRelayBufCap relayBufCap = some cap) (fd : Nat) (es : List RedirectEvent)
    (stream : List UInt8)
    (hstream : (Lib.run (step cap) (accept fd) es).clientRead <+: stream) :
    (∀ rl, (Lib.run (step cap) (accept fd) es).phase = .relaying rl →
      ((Lib.run (step cap) (accept fd) es).Transparent rl ↔ FirstPacket.Fits stream)) ∧
      (Lib.run (step cap) (accept fd) es).fp.buf.length ≤ cap := by
  have hrun : (Lib.run (step cap) (accept fd) es).Kept :=
    Lib.run_invariant (accept_kept fd) (fun _ e h => h.step cap e) es
  exact ⟨fun rl hphase => hrun.transparent_iff hphase hstream,
    (Lib.run (step cap) (accept fd) es).fp.buf_le.trans (dispatcherRelayBufCap_le hcap)⟩

theorem step_dialDone {cap fd : Nat} {rl : PlainRelay} (hphase : c.phase = .dialing)
    (hstart : PlainRelay.start c.fd fd c.fp.buf cap true true true true = some rl) :
    c.step cap (.dialDone (some fd) true true true true) = { c with phase := .relaying rl } := by
  simp only [step, hphase, onDialDone, hstart]

/-- A first byte that is of no protocol is what the cover site gets first. -/
theorem redirect_transparent_iff_unrecognised :
    ∃ rl, (Lib.run (step 16384) (accept 3) [.readable [.data [1, 2]] ⟨false, true⟩,
        .dialDone (some 4) true true true true]).phase = .relaying rl ∧
      (Lib.run (step 16384) (accept 3) [.readable [.data [1, 2]] ⟨false, true⟩,
        .dialDone (some 4) true true true true]).Transparent rl := by
  have hcap : dispatcherRelayBufCap 0 = some 16384 := by decide
  obtain ⟨rl, hstart⟩ := PlainRelay.start_isSome [1] 3 4 (Nat.succ_pos 16383) (by decide)
  have hrun : Lib.run (step 16384) (accept 3) [.readable [.data [1, 2]] ⟨false, true⟩,
      .dialDone (some 4) true true true true] = { (Lib.run (step 16384) (accept 3)
        [.readable [.data [1, 2]] ⟨false, true⟩]) with phase := .relaying rl } :=
    step_dialDone (c := Lib.run (step 16384) (accept 3) [.readable [.data [1, 2]] ⟨false, true⟩])
      rfl hstart
  have hphase := congrArg RedirectConn.phase hrun
  refine ⟨rl, hphase, ((redirect_transparent_iff hcap 3 _ [1, 2] ?_).1 rl hphase).mpr ?_⟩
  · rw [clientRead, hphase, hrun]
    dsimp only
    rw [PlainRelay.start_readFrom hstart]
    exact ⟨[2], rfl⟩
  · exact fun h => absurd h (by decide)

/-! ## A request that fills the buffer

`G` and then 3000 times `a`: the reader keeps 3000 bytes, reads one more and gives up. -/

/-- `n` times `a` are read after the `G`. -/
structure Filling (fp : FirstPacket) (n : Nat) : Prop where
  buf : fp.buf = 0x47 :: List.replicate n 0x61
  transport : fp.transport = .webSocket
  status : fp.status = .needMore
  crlfState : fp.crlfState = 0

theorem Filling.want {fp : FirstPacket} {n : Nat} (h : Filling fp n) : fp.want = 1 := by
  rw [FirstPacket.want, if_pos h.status, h.transport]

theorem Filling.feed {fp : FirstPacket} {n : Nat} (h : Filling fp n) (hn : n + 1 < firstPacketMax) :
    Filling (fp.feed [0x61]) (n + 1) := by
  have hlt : fp.buf.length < firstPacketMax := by
    rw [h.buf, List.length_cons, List.length_replicate]
    exact hn
  have hcrlf : FirstPacket.crlfNext 0 0x61 = some 0 := by decide
  have hfeed : fp.feed [0x61] = { fp with
      buf := fp.buf ++ [0x61]
      buf_le := by rw [List.length_append]; exact hlt
      crlfState := 0 } := by
    simp [FirstPacket.feed, h.status, h.want, FirstPacket.feedLoop, FirstPacket.feedByte,
      FirstPacket.pushByte, hlt, FirstPacket.afterPush, h.transport, h.crlfState, hcrlf]
  rw [hfeed]
  refine ⟨?_, h.transport, h.status, rfl⟩
  dsimp only
  rw [h.buf, List.cons_append, ← List.replicate_succ']

theorem Filling.feed_last {fp : FirstPacket} {n : Nat} (h : Filling fp n)
    (hn : n + 1 = firstPacketMax) : fp.feed [0x61] = fp.fail := by
  have hfull : ¬ fp.buf.length < firstPacketMax := by
    rw [h.buf, List.length_cons, List.length_replicate, hn]
    exact Nat.lt_irrefl _
  simp [FirstPacket.feed, h.status, h.want, FirstPacket.feedLoop, FirstPacket.feedByte,
    FirstPacket.pushByte, hfull, FirstPacket.fail]

/-- The rest of the request, a byte with each read. -/
theorem Filling.readFirst {c : RedirectConn} {n k : Nat} (h : Filling c.fp n)
    (hk : n + 1 + k = firstPacketMax) (answers : FirstPacketAnswers) :
    (RedirectConn.readFirst answers (List.replicate (k + 1) (.data [0x61])) c).fp.buf =
        0x47 :: List.replicate (n + k) 0x61 ∧
      (RedirectConn.readFirst answers (List.replicate (k + 1) (.data [0x61])) c).consumed =
        c.consumed ++ List.replicate (k + 1) 0x61 ∧
      (RedirectConn.readFirst answers (List.replicate (k + 1) (.data [0x61])) c).phase =
        if answers.dialStarts then .dialing else .gone := by
  induction k generalizing c n with
  | zero =>
    have hlast := h.feed_last hk
    have hstatus : (c.fp.feed [0x61]).status = .error := by
      rw [hlast]
      rfl
    have hbuf : (c.fp.feed [0x61]).buf = 0x47 :: List.replicate n 0x61 := by
      rw [hlast]
      exact h.buf
    simp [RedirectConn.readFirst, h.want, hstatus, startRedirect, hbuf, RedirectConn.feed]
  | succ k ih =>
    have hnext : Filling (c.feed [0x61]).fp (n + 1) := h.feed (by omega)
    obtain ⟨hbuf, hconsumed, hphase⟩ := ih hnext (by omega)
    have hstep : RedirectConn.readFirst answers (List.replicate (k + 1 + 1) (.data [0x61])) c =
        RedirectConn.readFirst answers (List.replicate (k + 1) (.data [0x61])) (c.feed [0x61]) := by
      rw [List.replicate_succ]
      simp [RedirectConn.readFirst, h.want, hnext.status]
    rw [hstep]
    refine ⟨?_, ?_, hphase⟩
    · rw [hbuf, Nat.add_right_comm, Nat.add_assoc]
    · rw [hconsumed, RedirectConn.feed, List.append_assoc, List.replicate_succ (n := k + 1)]
      rfl

theorem filling_get (answers : FirstPacketAnswers) :
    Filling (Lib.run (step 16384) (accept 3) [.readable [.data [0x47]] answers]).fp 0 :=
  ⟨rfl, rfl, rfl, rfl⟩

theorem overflow_run {n : Nat} (hn : n + 1 = firstPacketMax) :
    ∃ es rl, (Lib.run (step 16384) (accept 3) es).phase = .relaying rl ∧
      (Lib.run (step 16384) (accept 3) es).clientRead = 0x47 :: List.replicate (n + 1) 0x61 ∧
      PlainRelay.sentTo .b rl.io ++ (rl.q .a).contents = 0x47 :: List.replicate n 0x61 ∧
      ¬ (Lib.run (step 16384) (accept 3) es).Transparent rl := by
  have hget := filling_get ⟨false, true⟩
  have hconsumed₀ : (Lib.run (step 16384) (accept 3)
      [.readable [.data [0x47]] ⟨false, true⟩]).consumed = [0x47] := rfl
  have hphase₀ : (Lib.run (step 16384) (accept 3)
      [.readable [.data [0x47]] ⟨false, true⟩]).phase = .reading := rfl
  generalize hc : Lib.run (step 16384) (accept 3) [.readable [.data [0x47]] ⟨false, true⟩] = c
    at hget hconsumed₀ hphase₀
  obtain ⟨hbuf, hconsumed, hphase⟩ := hget.readFirst (k := n) (by omega) ⟨false, true⟩
  have hreads : c.step 16384 (.readable (List.replicate (n + 1) (.data [0x61])) ⟨false, true⟩) =
      RedirectConn.readFirst ⟨false, true⟩ (List.replicate (n + 1) (.data [0x61])) c := by
    simp only [step, hphase₀]
  rw [← hreads, Nat.zero_add] at hbuf
  rw [← hreads, hconsumed₀] at hconsumed
  rw [← hreads, if_pos rfl] at hphase
  generalize hc' : c.step 16384 (.readable (List.replicate (n + 1) (.data [0x61])) ⟨false, true⟩) = c'
    at hbuf hconsumed hphase
  obtain ⟨rl, hstart⟩ := PlainRelay.start_isSome c'.fp.buf c'.fd 4
    (Nat.succ_pos 16383) (c'.fp.buf_le.trans (by decide))
  have hrun : Lib.run (step 16384) (accept 3) [.readable [.data [0x47]] ⟨false, true⟩,
      .readable (List.replicate (n + 1) (.data [0x61])) ⟨false, true⟩,
      .dialDone (some 4) true true true true] = { c' with phase := .relaying rl } := by
    rw [← step_dialDone hphase hstart, ← hc', ← hc]
    rfl
  have hread := PlainRelay.start_readFrom hstart .a
  obtain ⟨_, hdone, hrunning⟩ := PlainRelay.start_running hstart
  have hexact := (hrunning.live hdone).flowing.exact .b
  refine ⟨_, rl, congrArg RedirectConn.phase hrun, ?_, ?_, ?_⟩
  · rw [hrun, clientRead]
    dsimp only
    rw [hread, hconsumed, List.append_nil]
    rfl
  · rw [PlainRelay.owed, if_pos rfl] at hexact
    refine hexact.trans ?_
    rw [show RelaySide.other .b = .a from rfl, hread, hbuf, List.append_nil]
  · rw [hrun]
    rintro ⟨hkept, _⟩
    dsimp only at hkept
    rw [hbuf, hconsumed] at hkept
    simpa using congrArg List.length hkept

/-- The byte that fills the buffer over is neither kept nor sent: the relay has 3000 bytes of the
    3001 that were read. -/
theorem redirect_loses_byte :
    ∃ es rl, (Lib.run (step 16384) (accept 3) es).phase = .relaying rl ∧
      (Lib.run (step 16384) (accept 3) es).clientRead = 0x47 :: List.replicate 3000 0x61 ∧
      PlainRelay.sentTo .b rl.io ++ (rl.q .a).contents = 0x47 :: List.replicate 2999 0x61 ∧
      ¬ (Lib.run (step 16384) (accept 3) es).Transparent rl :=
  overflow_run rfl

end RedirectConn

end Cloak
