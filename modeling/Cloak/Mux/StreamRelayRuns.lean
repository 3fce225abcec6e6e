import Cloak.Lib.Run
import Cloak.Mux.StreamRelayDelivery

set_option autoImplicit false

/-! # Runs of a stream relay

What every entry point keeps (`Delivering`), and what it says of a whole run: the bytes arrive in
order, none is stranded, and a relay that ends with its stream has sent them all. -/

namespace Cloak

open Lib

/-- A write to an ordered stream sends a front of what it is given, and all of it unless the send side
    is closed. -/
theorem Stream.write_ordered (evp : Evp) {st : Stream} (hord : st.isOrdered = true) (bs : List UInt8)
    (env : Nat → FrameEnv) :
    (st.write evp bs env).1.recv = st.recv
      ∧ payloads ((st.write evp bs env).2.1.map SealedFrame.frame) <+: bs
      ∧ ((st.write evp bs env).2.2 = .ok
          → payloads ((st.write evp bs env).2.1.map SealedFrame.frame) = bs)
      ∧ ((st.write evp bs env).2.2 ≠ .ok → (st.write evp bs env).1.writeClosed = true) := by
  by_cases hclosed : st.writeClosed = true
  · have hw : st.write evp bs env = (st, [], .error) := if_pos hclosed
    rw [hw]
    refine ⟨rfl, List.nil_prefix, ?_, fun _ => hclosed⟩
    intro hok
    cases hok
  · have hspec := Stream.writeLoop_spec evp env bs.length st 0 bs (Nat.le_refl _)
    rw [Stream.write, if_neg hclosed, if_neg (by simp [hord])]
    cases hok : (Stream.writeLoop evp env bs.length st 0 bs).2.2 with
    | true =>
      obtain ⟨_, hall⟩ := hspec.sent hok
      exact ⟨hspec.recv, ⟨[], (List.append_nil _).trans hall⟩, fun _ => hall, fun hne => absurd rfl hne⟩
    | false =>
      obtain ⟨hshut, hfront⟩ := hspec.failed hok
      refine ⟨hspec.recv, hfront, ?_, fun _ => hshut⟩
      intro hok
      cases hok

namespace StreamRelay

variable {fed : List Frame} {sr sr' : StreamRelay}

/-! ## From the descriptor to the stream -/

/-- The descriptor is registered for what the queue needs. -/
def Waits (sr : StreamRelay) : Prop :=
  sr.done = false → sr.interest.writable = decide (0 < sr.toFd.len)

/-- What a pause, a resumption and the end of the relay leave alone. -/
structure Same (sr sr' : StreamRelay) : Prop where
  stream : sr'.stream = sr.stream
  toFd : sr'.toFd = sr.toFd
  streamEnded : sr'.streamEnded = sr.streamEnded
  byStream : sr'.byStream = sr.byStream
  io : sr'.io = sr.io
  done : sr.done = true → sr'.done = true
  finishing : sr'.isFinishing = false → sr.isFinishing = false
  waits : sr.Waits → sr'.Waits

theorem Same.refl (sr : StreamRelay) : sr.Same sr :=
  ⟨rfl, rfl, rfl, rfl, rfl, id, id, id⟩

theorem Same.trans {sr'' : StreamRelay} (h : sr.Same sr') (h' : sr'.Same sr'') : sr.Same sr'' :=
  ⟨h'.stream.trans h.stream, h'.toFd.trans h.toFd, h'.streamEnded.trans h.streamEnded,
    h'.byStream.trans h.byStream, h'.io.trans h.io, h'.done ∘ h.done, h.finishing ∘ h'.finishing, h'.waits ∘ h.waits⟩

theorem Sound.of_same (h : sr.Sound fed) (hs : sr.Same sr') : sr'.Sound fed := by
  refine ⟨?_, ?_, ?_, ?_, fun hended => ?_⟩
  · rw [hs.io]
    exact h.safe
  · rw [hs.io, hs.toFd]
    exact h.queue
  · rw [hs.toFd]
    exact h.unclosed
  · rw [hs.io, hs.stream]
    exact h.recv
  · rw [hs.stream]
    exact h.ended (hs.streamEnded ▸ hended)

theorem waits_syncInterest (sr : StreamRelay) : sr.syncInterest.Waits := by
  unfold syncInterest
  split
  · next hdone => exact fun hrun => absurd (hdone.symm.trans hrun) (by simp)
  · split
    · next hnone =>
      intro _
      rw [hnone.2]
      exact (congrArg RelayInterest.writable hnone.1).symm
    · exact fun _ => rfl

theorem same_syncInterest (sr : StreamRelay) : sr.Same sr.syncInterest := by
  have hwaits := sr.waits_syncInterest
  unfold syncInterest at hwaits ⊢
  split
  · exact .refl sr
  · split
    · exact .refl sr
    · next hdone hsome =>
      rw [if_neg hdone, if_neg hsome] at hwaits
      exact ⟨rfl, rfl, rfl, rfl, rfl, id, id, fun _ => hwaits⟩

theorem same_teardown (sr : StreamRelay) : sr.Same sr.teardown := by
  unfold teardown
  split
  · exact .refl sr
  · exact ⟨rfl, rfl, rfl, rfl, rfl, fun _ => rfl, nofun, fun _ => nofun⟩

theorem done_teardown (sr : StreamRelay) : sr.teardown.done = true := by
  unfold teardown
  split
  · next hdone => exact hdone
  · rfl

theorem same_rateTimer (sr : StreamRelay) (armed : Bool) : sr.Same { sr with rateTimer := armed } :=
  ⟨rfl, rfl, rfl, rfl, rfl, id, id, id⟩

theorem same_fdReadPaused (sr : StreamRelay) (paused : Bool) :
    sr.Same { sr with fdReadPaused := paused } :=
  ⟨rfl, rfl, rfl, rfl, rfl, id, id, id⟩

theorem same_armRateTimer (sr : StreamRelay) (timerOk : Bool) :
    sr.Same (sr.armRateTimer timerOk).1 := by
  unfold armRateTimer
  split
  · exact .refl sr
  · exact sr.same_rateTimer timerOk

/-- The timer that a resumption finds itself in need of, or the end of the relay. -/
theorem same_armOrEnd (sr : StreamRelay) (timerOk : Bool) :
    sr.Same (match sr.armRateTimer timerOk with
      | (sr, true) => sr
      | (sr, false) => sr.teardown) := by
  have harm := sr.same_armRateTimer timerOk
  cases h : sr.armRateTimer timerOk with
  | mk sr' ok =>
    rw [h] at harm
    cases ok with
    | true => exact harm
    | false => exact harm.trans sr'.same_teardown

theorem same_notifyWritable (sr : StreamRelay) (n : RelayNotice) : sr.Same (sr.notifyWritable n) := by
  unfold notifyWritable
  split
  · exact .refl sr
  · split
    · split
      · exact sr.same_armOrEnd n.timerOk
      · exact .refl sr
    · exact (sr.same_fdReadPaused false).trans (same_syncInterest _)

theorem same_notices (ns : List RelayNotice) (sr : StreamRelay) :
    sr.Same (ns.foldl notifyWritable sr) := by
  induction ns generalizing sr with
  | nil => exact .refl sr
  | cons n ns ih => exact (sr.same_notifyWritable n).trans (ih _)

/-- The stream was sent what the descriptor gave. -/
def Written (sr : StreamRelay) : Prop := moved .frame sr.io = moved .read sr.io

/-- What reading the descriptor has done, and whether it is to go on. -/
structure ReadSpec (fed : List Frame) (sr : StreamRelay) (res : StreamRelay × Bool) : Prop where
  sound : res.1.Sound fed
  ring : ring res.1.stream = ring sr.stream
  toFd : res.1.toFd = sr.toFd
  byStream : res.1.byStream = sr.byStream
  finishing : res.1.isFinishing = false → sr.isFinishing = false
  written : res.1.Written ∨ res.2 = false ∧ res.1.stream.writeClosed = true

theorem ReadSpec.of_same (h : sr.Sound fed) (hw : sr.Written) (hs : sr.Same sr') (ok : Bool) :
    ReadSpec fed sr (sr', ok) := by
  refine ⟨h.of_same hs, ?_, hs.toFd, hs.byStream, hs.finishing, .inl ?_⟩
  · rw [hs.stream]
  · rw [Written, hs.io]
    exact hw

theorem ReadSpec.trans {ok : Bool} {res : StreamRelay × Bool} (h : ReadSpec fed sr (sr', ok))
    (h' : ReadSpec fed sr' res) : ReadSpec fed sr res :=
  ⟨h'.sound, h'.ring.trans h.ring, h'.toFd.trans h.toFd, h'.byStream.trans h.byStream,
    h.finishing ∘ h'.finishing, h'.written⟩

/-- What is read goes to the stream. -/
theorem writeStream_spec (evp : Evp) (h : sr.Sound fed) (hw : sr.Written) (bs : List UInt8)
    (t : StreamRelayTurn) : ReadSpec fed sr ((sr.readIn bs).writeStream evp bs t)
      ∧ (((sr.readIn bs).writeStream evp bs t).2 = true →
        ((sr.readIn bs).writeStream evp bs t).1.Written) := by
  obtain ⟨r, F, hrecv, hasm, hstall⟩ := h.recv
  have hord : sr.stream.isOrdered = true := by rw [Stream.isOrdered, hrecv]
  obtain ⟨hsame, hfront, hall, hshut⟩ := Stream.write_ordered evp hord bs t.frames
  set w := sr.stream.write evp bs t.frames with hwrite
  set s : StreamRelay :=
    { sr with
      stream := w.1
      io := sr.io ++ [⟨.read, bs⟩] ++ w.2.1.map (⟨.frame, ·.frame.payload⟩) } with hs
  have hio : s.io = sr.io ++ ⟨.read, bs⟩ :: w.2.1.map (⟨.frame, ·.frame.payload⟩) := by
    rw [hs, List.append_assoc, List.singleton_append]
  have hmoved : ∀ k, moved k s.io = moved k sr.io ++ ((if Transfer.read = k then bs else [])
      ++ if Transfer.frame = k then payloads (w.2.1.map SealedFrame.frame) else []) :=
    fun k => by rw [hio, moved_append, moved_write]
  have hgot : moved .got s.io = moved .got sr.io := by simpa using hmoved .got
  have hsent : moved .sent s.io = moved .sent sr.io := by simpa using hmoved .sent
  have hring : StreamRelay.ring s.stream = StreamRelay.ring sr.stream := by
    simp only [StreamRelay.ring, hs, hsame]
  have hsound : s.Sound fed := by
    refine ⟨hio ▸ h.safe.write hw hfront, ?_, h.unclosed, ⟨r, F, hsame.trans hrecv, ?_, hstall⟩, ?_⟩
    · rw [hgot, hsent]
      exact h.queue
    · rw [hgot]
      exact hasm
    · intro hended
      obtain ⟨r', hrecv', hend⟩ := h.ended hended
      exact ⟨r', hsame.trans hrecv', hend⟩
  have hwritten : w.2.2 = .ok → s.Written := by
    intro hok
    have hframe := hmoved .frame
    have hread := hmoved .read
    simp only [reduceCtorEq, if_false, if_true, List.append_nil, List.nil_append] at hframe hread
    rw [Written, hframe, hread, hw, hall hok]
  have hrest := same_notices t.notices s
  have heq : (sr.readIn bs).writeStream evp bs t
      = (t.notices.foldl notifyWritable s, decide (w.2.2 = .ok)) := rfl
  have hkeep : w.2.2 = .ok → (t.notices.foldl notifyWritable s).Written := by
    intro hok
    rw [Written, hrest.io]
    exact hwritten hok
  rw [heq]
  refine ⟨⟨hsound.of_same hrest, ?_, hrest.toFd, hrest.byStream, hrest.finishing, ?_⟩,
    fun hok => hkeep (of_decide_eq_true hok)⟩
  · dsimp only
    rw [hrest.stream, hring]
  · by_cases hok : w.2.2 = .ok
    · exact .inl (hkeep hok)
    · refine .inr ⟨decide_eq_false hok, ?_⟩
      dsimp only
      rw [hrest.stream]
      exact hshut hok

theorem pumpFdToStream_spec (evp : Evp) (turns : List StreamRelayTurn) (h : sr.Sound fed)
    (hw : sr.Written) : ReadSpec fed sr (sr.pumpFdToStream evp turns) := by
  induction turns generalizing sr with
  | nil => exact .of_same h hw (.refl sr) true
  | cons t ts ih =>
    rw [pumpFdToStream]
    split
    · split
      · have harm := sr.same_armRateTimer t.room.timerOk
        cases hpause : sr.armRateTimer t.room.timerOk with
        | mk sr' ok =>
          rw [hpause] at harm
          cases ok with
          | true => exact .of_same h hw (harm.trans (sr'.same_fdReadPaused true)) true
          | false => exact .of_same h hw harm false
      · exact .of_same h hw (sr.same_fdReadPaused true) true
    · split
      · exact .of_same h hw (.refl sr) false
      · cases t.answer with
        | data bs =>
          dsimp only
          split
          · exact .of_same h hw (.refl sr) false
          · obtain ⟨hspec, hgo⟩ := writeStream_spec evp h hw
              (bs.take (streamRelayFdReadBudget t.room.minConnFree sr.stream t.room.valve).1) t
            generalize (sr.readIn _).writeStream evp _ t = w at hspec hgo
            obtain ⟨s, ok⟩ := w
            cases ok with
            | true => exact hspec.trans (ih hspec.sound (hgo rfl))
            | false => exact hspec
        | intr => exact ih h hw
        | again => exact .of_same h hw (.refl sr) true
        | failed => exact .of_same h hw (.refl sr) false

/-! ## The entry points -/

/-- What holds of a relay between its entry points. -/
structure Delivering (fed : List Frame) (sr : StreamRelay) : Prop where
  sound : sr.Sound fed
  written : sr.Written ∨ sr.done = true ∧ sr.stream.writeClosed = true
  settled : sr.isFinishing = false → sr.Settled
  waits : sr.isFinishing = false → sr.Waits
  byStream : sr.byStream = true → sr.isFinishing = true ∧ AtEnd sr.stream ∧ sr.toFd.contents = []

theorem done_of_running (h : sr.isFinishing = false) : sr.done = false :=
  (Bool.or_eq_false_iff.mp h).1

theorem isFinishing_of_done (h : sr.done = true) : sr.isFinishing = true := by
  rw [isFinishing, h, Bool.true_or]

theorem Delivering.of_same (h : sr.Delivering fed) (hs : sr.Same sr') : sr'.Delivering fed := by
  refine ⟨h.sound.of_same hs, ?_, fun hrun => ?_, fun hrun => hs.waits (h.waits (hs.finishing hrun)),
    fun hby => ?_⟩
  · rw [Written, hs.io, hs.stream]
    exact h.written.imp_right (And.imp_left hs.done)
  · rw [Settled, hs.stream, hs.toFd]
    exact h.settled (hs.finishing hrun)
  · obtain ⟨hfin, hend⟩ := h.byStream (hs.byStream ▸ hby)
    rw [hs.stream, hs.toFd]
    refine ⟨eq_true_of_ne_false fun hrun => ?_, hend⟩
    exact Bool.false_ne_true ((hs.finishing hrun).symm.trans hfin)

/-- A running relay that is not over, and what it has written. -/
theorem Delivering.running (h : sr.Delivering fed) (hrun : sr.isFinishing = false) :
    sr.Written ∧ sr.byStream = false := by
  refine ⟨h.written.resolve_right fun hc => ?_, Bool.eq_false_iff.mpr fun hby => ?_⟩
  · exact Bool.false_ne_true ((done_of_running hrun).symm.trans hc.1)
  · exact Bool.false_ne_true (hrun.symm.trans (h.byStream hby).1)

/-- The end of an entry point that goes on. -/
theorem delivering_sync (h : sr.Sound fed) (hw : sr.Written) (hsettled : sr.Settled)
    (hby : sr.byStream = false) : sr.syncInterest.Delivering fed := by
  have hs := sr.same_syncInterest
  refine ⟨h.of_same hs, .inl ?_, fun _ => ?_, fun _ => sr.waits_syncInterest, fun hc => ?_⟩
  · rw [Written, hs.io]
    exact hw
  · rw [Settled, hs.stream, hs.toFd]
    exact hsettled
  · exact absurd (hs.byStream ▸ hc) (by simp [hby])

theorem PumpSpec.written {res : StreamRelay × StreamPump} (h : PumpSpec fed sr res)
    (hw : sr.Written) : res.1.Written := by
  rw [Written, h.kept.frame, h.kept.read]
  exact hw

/-- The end of a relay whose pump failed or found the end of the stream. -/
theorem PumpSpec.delivering_end {s : StreamRelay} {found : StreamPump}
    (h : PumpSpec fed sr (s, found)) (hw : sr.Written) :
    (s.endWith found).teardown.Delivering fed := by
  have hs := same_teardown (s.endWith found)
  have hfin := isFinishing_of_done (done_teardown (s.endWith found))
  have hover : ∀ {p : Prop}, (s.endWith found).teardown.isFinishing = false → p := fun hrun =>
    absurd (hrun.symm.trans hfin) Bool.false_ne_true
  have hsound : (s.endWith found).Sound fed :=
    ⟨h.sound.safe, h.sound.queue, h.sound.unclosed, h.sound.recv, h.sound.ended⟩
  refine ⟨hsound.of_same hs, .inl ?_, hover, hover, fun hby => ⟨hfin, ?_⟩⟩
  · rw [Written, hs.io]
    exact h.written hw
  · rw [hs.stream, hs.toFd]
    exact h.ended (of_decide_eq_true (hs.byStream.symm.trans hby))

theorem readFd_delivering (evp : Evp) (turns : List StreamRelayTurn) (lastAnswers : List SendAnswer)
    (h : sr.Sound fed) (hw : sr.Written) (hsettled : sr.Settled) (hby : sr.byStream = false) :
    (sr.readFd evp turns lastAnswers).Delivering fed := by
  have hspec := pumpFdToStream_spec evp turns h hw
  unfold readFd
  generalize sr.pumpFdToStream evp turns = res at hspec
  obtain ⟨s, ok⟩ := res
  have hby' : s.byStream = false := hspec.byStream.trans hby
  cases ok with
  | true =>
    refine delivering_sync hspec.sound ?_ ?_ hby'
    · exact hspec.written.resolve_right fun hc => absurd hc.1 (by simp)
    · change StreamRelay.ring s.stream ≠ [] → 0 < s.toFd.len
      rw [hspec.ring, hspec.toFd]
      exact hsettled
  | false =>
    have hover : ∀ {s' : StreamRelay} {p : Prop}, s'.done = true → s'.isFinishing = false → p :=
      fun hdone hrun => absurd (hrun.symm.trans (isFinishing_of_done hdone)) Bool.false_ne_true
    dsimp only
    split
    · next hdone =>
      exact ⟨hspec.sound, hspec.written.imp_right fun hc => ⟨hdone, hc.2⟩, hover hdone, hover hdone,
        fun hc => absurd hc (by simp [hby'])⟩
    · have hpump := pump_spec lastAnswers hspec.sound
      have hs := same_teardown (s.pumpStreamToFd lastAnswers).1
      have hdone := done_teardown (s.pumpStreamToFd lastAnswers).1
      refine ⟨hpump.sound.of_same hs, ?_, hover hdone, hover hdone, fun hc => ?_⟩
      · rw [Written, hs.io, hs.stream, hpump.kept.frame, hpump.kept.read, hpump.kept.writeClosed]
        exact hspec.written.imp_right fun hc => ⟨hdone, hc.2⟩
      · rw [hs.byStream, hpump.kept.byStream, hby'] at hc
        cases hc

/-- A pump, and the rest of the entry point when it does not end the relay. -/
theorem delivering_pump {res : StreamRelay × StreamPump} (next : StreamRelay → StreamRelay)
    (hpump : PumpSpec fed sr res) (hw : sr.Written)
    (hnext : ∀ s, s.Sound fed → s.Written → s.Settled → s.byStream = sr.byStream →
      (next s).Delivering fed) :
    (match res with
      | (s, .goOn) => next s
      | (s, found) => (s.endWith found).teardown).Delivering fed := by
  have hw' := hpump.written hw
  obtain ⟨s, found⟩ := res
  cases found with
  | goOn => exact hnext s hpump.sound hw' (hpump.settled rfl) hpump.kept.byStream
  | broken => exact hpump.delivering_end hw
  | ended => exact hpump.delivering_end hw

theorem onEvent_delivering (evp : Evp) (events : RelayInterest) (answers : List SendAnswer)
    (turns : List StreamRelayTurn) (lastAnswers : List SendAnswer) (h : sr.Delivering fed) :
    (sr.onEvent evp events answers turns lastAnswers).Delivering fed := by
  unfold onEvent
  split
  · exact h
  · next hrun =>
    have hrun : sr.isFinishing = false := by simpa using hrun
    obtain ⟨hw, hby⟩ := h.running hrun
    refine delivering_pump (fun s =>
      if events.readable then s.readFd evp turns lastAnswers else s.syncInterest) ?_ hw ?_
    · split
      · exact pump_spec answers h.sound
      · exact ⟨h.sound, .refl sr, fun _ => h.settled hrun, nofun⟩
    · intro s hs hw' hsettled hby'
      have hby' := hby'.trans hby
      split
      · exact readFd_delivering evp turns lastAnswers hs hw' hsettled hby'
      · exact delivering_sync hs hw' hsettled hby'

theorem onRateTimer_delivering (evp : Evp) (n : RelayNotice) (turns : List StreamRelayTurn)
    (lastAnswers : List SendAnswer) (h : sr.Delivering fed) :
    (sr.onRateTimer evp n turns lastAnswers).Delivering fed := by
  have hfired := h.of_same (sr.same_rateTimer false)
  unfold onRateTimer
  dsimp only
  split
  · exact hfired
  · next hgo =>
    have hrun : sr.isFinishing = false := Bool.eq_false_iff.mpr fun hc => hgo (.inl hc)
    split
    · split
      · exact hfired.of_same (same_armOrEnd _ n.timerOk)
      · exact hfired
    · obtain ⟨hw, hby⟩ := hfired.running hrun
      have hs := same_syncInterest { { sr with rateTimer := false } with fdReadPaused := false }
      have hsync := hfired.of_same ((same_fdReadPaused _ false).trans hs)
      refine readFd_delivering evp turns lastAnswers hsync.sound ?_ ?_ (hs.byStream.trans hby)
      · rw [Written, hs.io]
        exact hw
      · rw [Settled, hs.stream, hs.toFd]
        exact h.settled hrun

theorem notifyStreamData_delivering (answers : List SendAnswer) (h : sr.Sound fed) (hw : sr.Written)
    (hby : sr.byStream = false) (hrun : sr.isFinishing = false) :
    (sr.notifyStreamData answers).Delivering fed := by
  have hne : ¬sr.isFinishing = true := by simp [hrun]
  unfold notifyStreamData
  rw [if_neg hne]
  exact delivering_pump syncInterest (pump_spec answers h) hw fun s hs hw' hsettled hby' =>
    delivering_sync hs hw' hsettled (hby'.trans hby)

/-! ## Frames -/

/-- A closed stream takes no more frames. -/
theorem AtEnd.feedFrame {stream : Stream} (h : AtEnd stream) (f : Frame) (allocs : FeedAllocs) :
    (stream.feedFrame f allocs).1 = stream := by
  obtain ⟨r, hrecv, _, hseen⟩ := h
  have hrefused : r.accept f allocs = none := dif_pos hseen
  have hself : { stream with recv := .ordered r } = stream := by rw [← hrecv]
  rw [Stream.feedFrame, hrecv]
  dsimp only
  rw [OrderedRecv.feedFrame, hrefused]
  exact hself

theorem Sound.feedFrame (h : sr.Sound fed) (f : Frame) (allocs : FeedAllocs) :
    Sound (fed ++ [f]) { sr with stream := (sr.stream.feedFrame f allocs).1 } := by
  obtain ⟨r, F, hrecv, hasm, hstall⟩ := h.recv
  obtain ⟨F', hasm'⟩ := hasm.feedFrame f allocs
  refine ⟨h.safe, h.queue, h.unclosed, ⟨(r.feedFrame f allocs).1, F', ?_, hasm',
    r.feedFrame_noStall f allocs hstall⟩, fun hended => ?_⟩
  · simp only [Stream.feedFrame, hrecv]
  · have hend := h.ended hended
    dsimp only
    rw [hend.feedFrame]
    exact hend

/-- The frames fed in an event. -/
def Event.frames : Event → List Frame
  | .frame f _ _ => [f]
  | .ready .. | .rateTimer .. | .writable _ | .finishTimer | .stop => []

theorem Delivering.step (evp : Evp) (h : sr.Delivering fed) (e : Event) :
    (step evp sr e).Delivering (fed ++ e.frames) := by
  cases e with
  | frame f allocs answers =>
    have hsound := h.sound.feedFrame f allocs
    by_cases hrun : sr.isFinishing = true
    · have heq : StreamRelay.step evp sr (.frame f allocs answers)
          = { sr with stream := (sr.stream.feedFrame f allocs).1 } := if_pos hrun
      have hover : ∀ {p : Prop}, sr.isFinishing = false → p := fun hno =>
        absurd (hno.symm.trans hrun) Bool.false_ne_true
      have hclosed := sr.stream.writeClosed_feedFrame f allocs
      rw [heq]
      refine ⟨hsound, ?_, hover, hover, fun hby => ?_⟩
      · dsimp only
        rw [hclosed]
        exact h.written
      · obtain ⟨hfin, hend, hempty⟩ := h.byStream hby
        dsimp only
        rw [hend.feedFrame]
        exact ⟨hfin, hend, hempty⟩
    · have hrun : sr.isFinishing = false := by simpa using hrun
      obtain ⟨hw, hby⟩ := h.running hrun
      exact notifyStreamData_delivering answers hsound hw hby hrun
  | ready events answers turns lastAnswers =>
    rw [Event.frames, List.append_nil]
    exact onEvent_delivering evp events answers turns lastAnswers h
  | rateTimer n turns lastAnswers =>
    rw [Event.frames, List.append_nil, StreamRelay.step]
    split
    · exact onRateTimer_delivering evp n turns lastAnswers h
    · exact h
  | writable n =>
    rw [Event.frames, List.append_nil]
    exact h.of_same (sr.same_notifyWritable n)
  | finishTimer =>
    rw [Event.frames, List.append_nil, StreamRelay.step]
    split
    · refine h.of_same ?_
      have hs := same_teardown { sr with finishTimer := false }
      exact ⟨hs.stream, hs.toFd, hs.streamEnded, hs.byStream, hs.io, hs.done,
        fun hrun => absurd (hrun.symm.trans (isFinishing_of_done (done_teardown _)))
          Bool.false_ne_true, hs.waits⟩
    · exact h
  | stop =>
    rw [Event.frames, List.append_nil]
    exact h.of_same sr.same_teardown

/-! ## Runs -/

/-- A relay can start on a session with room for a frame. -/
theorem start_isSome (stream : Stream) {bufCap minConnFree : Nat} (answers : List SendAnswer)
    (hcap : 0 < bufCap) (hroom : streamRelayFrameCost stream ≤ minConnFree) :
    ∃ sr, start stream bufCap minConnFree true answers true = some sr := by
  obtain ⟨toFd, htoFd⟩ := ByteQueue.init_isSome hcap
  unfold start
  rw [if_neg (Nat.not_lt.mpr hroom), htoFd]
  dsimp only
  rw [if_neg (by decide)]
  split <;> exact ⟨_, rfl⟩

end StreamRelay

end Cloak
