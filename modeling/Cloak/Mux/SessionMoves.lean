import Mathlib.Logic.Relation
import Cloak.Mux.Session

set_option autoImplicit false

/-! # What one event can do to a session

Every event of a session is a chain of a few moves: one stream changes on its receive side, one
frame is sealed, an id enters the table or is buried in it, an entry is freed, a callback fires.
`step_moves` says so once, and an invariant of sessions is then one case for each move. A move that
only some event can make carries that event's guards, which speak of the session `s₀` the event
found. -/

namespace Cloak

open Lib Relation

/-! ## Moves -/

/-- The stream id a callback is about. -/
def SessionCallback.id? : SessionCallback → Option UInt32
  | fed id => some id
  | newStream id => some id
  | streamData id => some id
  | broken => none

namespace Session

/-- The stream `cloak_stream_init` builds for a session. -/
def initStream (c : SessionConfig) (id : UInt32) : Except Stream.InitError Stream :=
  Stream.init id c.obfuscator c.maxOnWireSize c.streamRecvCapacity c.streamMaxPendingFrames c.ordering

/-- The frame an event brings in, if the session takes it as one for a stream. -/
def inbound (evp : Evp) (s : Session) : SessionEv → Option Frame
  | .envelope bytes _ _ =>
    if s.closed then none
    else (Frame.deobfuscate evp s.config.obfuscator bytes).filter fun f => f.closing ≠ closingSession
  | _ => none

/-- Changes to what no move tracks: timers, counters, the call stack. -/
structure Untracked (s s' : Session) : Prop where
  config : s'.config = s.config
  nextStreamId : s'.nextStreamId = s.nextStreamId
  streams : s'.streams = s.streams
  heap : s'.heap = s.heap
  sealed : s'.sealed = s.sealed
  sealFailures : s'.sealFailures = s.sealFailures
  opened : s'.opened = s.opened
  callbacks : s'.callbacks = s.callbacks
  closed : s.closed = true → s'.closed = true

/-- One move of the event `ev` on the session `s₀`. -/
inductive Move (evp : Evp) (s₀ : Session) (ev : SessionEv) : Session → Session → Prop
  | untracked {s s' : Session} : Untracked s s' → Move evp s₀ ev s s'
  | touch {s : Session} {h : StreamHandle} {e : StreamEntry} {st : Stream} (retired : Bool) :
    s.entry h = some e → e.stream.SameWrite st → Move evp s₀ ev s (s.setEntry h ⟨st, retired⟩)
  | sealed {s : Session} {h : StreamHandle} {e : StreamEntry} {st : Stream} {f : SealedFrame}
    {closing : UInt8} {payload : List UInt8} {draws : FrameDraws} : s.entry h = some e →
    0 < payload.length → payload.length ≤ e.stream.maxPayloadPerFrame →
    e.stream.sealFrame evp closing payload draws = (st, some f) →
    Move evp s₀ ev s { s.setEntry h { e with stream := st } with sealed := s.sealed ++ [f] }
  | sealFailed {s : Session} {h : StreamHandle} {e : StreamEntry} {st : Stream} {closing : UInt8}
    {payload : List UInt8} {draws : FrameDraws} : s.entry h = some e →
    0 < payload.length → payload.length ≤ e.stream.maxPayloadPerFrame →
    e.stream.sealFrame evp closing payload draws = (st, none) →
    Move evp s₀ ev s { s with sealFailures := s.sealFailures + 1 }
  | closing {s : Session} {env : ClosingEnv} {f : SealedFrame} : s.closed = false →
    sealClosing evp s.config env = some f →
    Move evp s₀ ev s { s with closed := true, sealed := s.sealed ++ [f] }
  | closingFailed {s : Session} {env : ClosingEnv} : s.closed = false →
    sealClosing evp s.config env = none →
    Move evp s₀ ev s { s with closed := true, sealFailures := s.sealFailures + 1 }
  | opened {s : Session} {allocs : StreamAllocs} {st : Stream} {t : Strmtab StreamHandle} :
    s = s₀ → ev = .openStream allocs → initStream s.config s.nextStreamId = .ok st →
    s.streams.insertActive s.nextStreamId s.heap.length allocs.table = (t, true) →
    Move evp s₀ ev s { s with
      nextStreamId := s.nextStreamId + 1
      streams := t
      heap := s.heap ++ [some ⟨st, false⟩]
      opened := s.opened ++ [s.nextStreamId] }
  | drew {s : Session} {allocs : StreamAllocs} {t : Strmtab StreamHandle} :
    s = s₀ → ev = .openStream allocs → (∀ k, t.lookup k = s.streams.lookup k) →
    Move evp s₀ ev s { s with nextStreamId := s.nextStreamId + 1, streams := t }
  | accepted {s : Session} {frame : Frame} {st : Stream} {t : Strmtab StreamHandle} {alloc : Bool} :
    s = s₀ → s₀.inbound evp ev = some frame → s.streams.lookup frame.streamId = none →
    initStream s.config frame.streamId = .ok st →
    s.streams.insertActive frame.streamId s.heap.length alloc = (t, true) →
    Move evp s₀ ev s { s with streams := t, heap := s.heap ++ [some ⟨st, false⟩] }
  | regrown {s : Session} {t : Strmtab StreamHandle} : (∀ k, t.lookup k = s.streams.lookup k) →
    Move evp s₀ ev s { s with streams := t }
  | bury {s : Session} (k : UInt32) : Move evp s₀ ev s { s with streams := s.streams.tombstone k }
  | freed {s : Session} (h : StreamHandle) : Move evp s₀ ev s (s.freeEntry h)
  | routed {s : Session} {frame : Frame} {c : SessionCallback} : s₀.inbound evp ev = some frame →
    s₀.streams.lookup frame.streamId ≠ some .tombstone → c.id? = some frame.streamId →
    Move evp s₀ ev s (s.callback c)
  | brokenUp {s : Session} : Move evp s₀ ev s (s.callback .broken)

/-- The moves of one event. -/
abbrev Moves (evp : Evp) (s₀ : Session) (ev : SessionEv) : Session → Session → Prop :=
  ReflTransGen (Move evp s₀ ev)

/-- A property that every move keeps is kept by every chain of moves. -/
theorem Moves.invariant {evp : Evp} {s₀ : Session} {ev : SessionEv} {P : Session → Prop}
    (hmove : ∀ s s', Move evp s₀ ev s s' → P s → P s') {s s' : Session}
    (h : Moves evp s₀ ev s s') (hs : P s) : P s' := by
  induction h with
  | refl => exact hs
  | tail _ hlast ih => exact hmove _ _ hlast ih

/-- No move changes the configuration. -/
theorem Move.config {evp : Evp} {s₀ : Session} {ev : SessionEv} {s s' : Session}
    (h : Move evp s₀ ev s s') : s'.config = s.config := by
  cases h with
  | untracked hu => exact hu.config
  | _ => rfl

/-! ## Every event is a chain of moves -/

section Steps

variable {evp : Evp} {s₀ : Session} {ev : SessionEv}

theorem push_moves (s : Session) (c : PendingCall) : Move evp s₀ ev s (s.push c) :=
  .untracked ⟨rfl, rfl, rfl, rfl, rfl, rfl, rfl, rfl, id⟩

theorem scheduleTeardown_moves (s : Session) : Move evp s₀ ev s s.scheduleTeardown :=
  .untracked ⟨rfl, rfl, rfl, rfl, rfl, rfl, rfl, rfl, id⟩

theorem closeInternal_moves (s : Session) : Move evp s₀ ev s s.closeInternal :=
  .untracked ⟨rfl, rfl, rfl, rfl, rfl, rfl, rfl, rfl, fun _ => rfl⟩

theorem passiveClose_moves (s : Session) : Moves evp s₀ ev s s.passiveClose := by
  unfold passiveClose
  split
  · exact .refl
  · exact (ReflTransGen.single (closeInternal_moves s)).tail (scheduleTeardown_moves _)

theorem retireStream_moves (s : Session) (h : StreamHandle) :
    Moves evp s₀ ev s (s.retireStream h) := by
  unfold retireStream
  split
  · exact .refl
  · next e he =>
    split
    · exact .refl
    · exact .head (.touch true he (.refl _)) (.head (.bury e.stream.id)
        (.single (.untracked ⟨rfl, rfl, rfl, rfl, rfl, rfl, rfl, rfl, id⟩)))

theorem destroyStream_moves (s : Session) (kh : UInt32 × StreamHandle) :
    Moves evp s₀ ev s (s.destroyStream kh) :=
  .head (.freed kh.2) (.head (.bury kh.1)
    (.single (.untracked ⟨rfl, rfl, rfl, rfl, rfl, rfl, rfl, rfl, id⟩)))

theorem freeAllActiveStreams_moves (s : Session) : Moves evp s₀ ev s s.freeAllActiveStreams := by
  unfold freeAllActiveStreams
  generalize s.streams.actives = l
  induction l generalizing s with
  | nil => exact .refl
  | cons kh l ih => exact (destroyStream_moves s kh).trans (ih _)

theorem close_moves (s : Session) (env : ClosingEnv) : Moves evp s₀ ev s (s.close evp env) := by
  unfold close
  split
  · exact .refl
  · next hopen =>
    have hopen : s.closed = false := Bool.eq_false_iff.mpr hopen
    split
    · next hnone =>
      exact .head (.closingFailed hopen hnone)
        (.single (.untracked ⟨rfl, rfl, rfl, rfl, rfl, rfl, rfl, rfl, fun _ => rfl⟩))
    · next f hsome =>
      exact .head (.closing hopen hsome)
        (.single (.untracked ⟨rfl, rfl, rfl, rfl, rfl, rfl, rfl, rfl, fun _ => rfl⟩))

theorem lt_length_of_entry {s : Session} {h : StreamHandle} {e : StreamEntry}
    (he : s.entry h = some e) : h < s.heap.length := by
  by_contra hge
  rw [entry, List.getD_eq_default _ _ (Nat.not_lt.mp hge)] at he
  cases he

theorem entry_setEntry_self {s : Session} {h : StreamHandle} {e : StreamEntry}
    (he : s.entry h = some e) (e' : StreamEntry) : (s.setEntry h e').entry h = some e' := by
  have hlt := lt_length_of_entry he
  rw [entry, setEntry, List.getD_eq_getElem?_getD, List.getElem?_set_self hlt, Option.getD_some]

theorem entry_set {s : Session} {h h' : StreamHandle} {o : Option StreamEntry} {e : StreamEntry}
    (he : Session.entry { s with heap := s.heap.set h o } h' = some e) :
    h' = h ∧ o = some e ∨ h' ≠ h ∧ s.entry h' = some e := by
  rw [entry, List.getD_eq_getElem?_getD, List.getElem?_set] at he
  split at he
  · next heq =>
    split at he
    · exact Or.inl ⟨heq.symm, he⟩
    · cases he
  · next hne =>
    refine Or.inr ⟨fun heq => hne heq.symm, ?_⟩
    rw [entry, List.getD_eq_getElem?_getD]
    exact he

theorem entry_append {s : Session} {e e' : StreamEntry} {h : StreamHandle}
    (he : Session.entry { s with heap := s.heap ++ [some e'] } h = some e) :
    h = s.heap.length ∧ e' = e ∨ h < s.heap.length ∧ s.entry h = some e := by
  rcases Nat.lt_trichotomy h s.heap.length with hlt | heq | hgt
  · rw [entry, List.getD_append _ _ _ _ hlt] at he
    exact Or.inr ⟨hlt, he⟩
  · subst heq
    rw [entry, List.getD_append_right _ _ _ _ (Nat.le_refl _), Nat.sub_self] at he
    exact Or.inl ⟨rfl, Option.some.inj he⟩
  · rw [entry, List.getD_eq_default _ _ (by rw [List.length_append]; exact hgt)] at he
    cases he

theorem entry_set_of_ne (s : Session) {h h' : StreamHandle} (o : Option StreamEntry) (hne : h' ≠ h) :
    Session.entry { s with heap := s.heap.set h o } h' = s.entry h' := by
  rw [entry, List.getD_eq_getElem?_getD, List.getElem?_set, if_neg hne.symm, entry,
    List.getD_eq_getElem?_getD]

theorem entry_freeEntry_self (s : Session) (h : StreamHandle) : (s.freeEntry h).entry h = none := by
  rw [entry, freeEntry, List.getD_eq_getElem?_getD, List.getElem?_set, if_pos rfl]
  split <;> rfl

theorem sealNext_moves {s : Session} {h : StreamHandle} {e : StreamEntry} (he : s.entry h = some e)
    (closing : UInt8) (payload : List UInt8) (draws : FrameDraws) (hpos : 0 < payload.length)
    (hle : payload.length ≤ e.stream.maxPayloadPerFrame) :
    Moves evp s₀ ev s (s.sealNext evp h e closing payload draws).1 := by
  unfold sealNext
  split
  · next st hseal =>
    obtain rfl := Stream.sealFrame_none hseal
    have hmoved : Moves evp s₀ ev s { s with sealFailures := s.sealFailures + 1 } :=
      .single (.sealFailed he hpos hle hseal)
    exact hmoved.tail (.touch e.retired he (Stream.sameWrite_closeWrite _))
  · next st f hseal =>
    have hmoved : Moves evp s₀ ev s
        { s.setEntry h { e with stream := st } with sealed := s.sealed ++ [f] } :=
      .single (.sealed he hpos hle hseal)
    split
    · exact hmoved
    · -- a closing frame also closes the write side
      have hentry : Session.entry
          { s.setEntry h { e with stream := st } with sealed := s.sealed ++ [f] } h
            = some { e with stream := st } := entry_setEntry_self he _
      have htouch := hmoved.tail (.touch e.retired hentry (Stream.sameWrite_closeWrite _))
      simp only [setEntry, List.set_set] at htouch ⊢
      exact htouch

theorem writeNext_moves (s : Session) (h : StreamHandle) (rest : List UInt8) (draws : FrameDraws) :
    Moves evp s₀ ev s (s.writeNext evp h rest draws) := by
  unfold writeNext
  split
  · exact .refl
  · next e he =>
    split
    · exact .refl
    · next hne =>
      have hpos := e.stream.maxPayload_pos
      have hmoves : Moves evp s₀ ev s (s.sealNext evp h e closingNothing
          (rest.take e.stream.maxPayloadPerFrame) draws).1 :=
        sealNext_moves he _ _ _ (by rw [List.length_take]; omega) (by rw [List.length_take]; omega)
      split
      · next hseal =>
        rw [hseal] at hmoves
        exact hmoves
      · next hseal =>
        rw [hseal] at hmoves
        exact hmoves.tail (push_moves _ _)

theorem writeStream_moves (s : Session) (h : StreamHandle) (bs : List UInt8) (draws : FrameDraws) :
    Moves evp s₀ ev s (s.writeStream evp h bs draws) := by
  unfold writeStream
  split
  · exact .refl
  · split
    · exact .refl
    · split
      · exact .refl
      · exact writeNext_moves s h bs draws

theorem sendClosing_moves {s : Session} {h : StreamHandle} {e : StreamEntry}
    (he : s.entry h = some e) (env : ClosingEnv) :
    Moves evp s₀ ev s (s.sendClosing evp h e env).1 := by
  unfold sendClosing
  split
  · exact .refl
  · have hlen := e.stream.length_closingPayload env
    exact sealNext_moves he _ _ _ hlen.1 hlen.2

theorem closeStream_moves (s : Session) (h : StreamHandle) (env : ClosingEnv) :
    Moves evp s₀ ev s (s.closeStream evp h env) := by
  unfold closeStream
  split
  · exact .refl
  · next e he =>
    split
    · exact .refl
    · have hmoves : Moves evp s₀ ev s (s.sendClosing evp h e env).1 := sendClosing_moves he env
      split
      · next hsend =>
        rw [hsend] at hmoves
        exact hmoves.trans (retireStream_moves _ h)
      · next hsend =>
        rw [hsend] at hmoves
        exact hmoves.tail (push_moves _ _)

theorem releaseStream_moves (s : Session) (h : StreamHandle) (env : ClosingEnv) :
    Moves evp s₀ ev s (s.releaseStream evp h env) := by
  unfold releaseStream
  split
  · exact .refl
  · next e he =>
    split
    · exact .single (.freed h)
    · have hmoves : Moves evp s₀ ev s (s.sendClosing evp h e env).1 := sendClosing_moves he env
      split
      · next hsend =>
        rw [hsend] at hmoves
        exact (hmoves.trans (retireStream_moves _ h)).tail (.freed h)
      · next hsend =>
        rw [hsend] at hmoves
        exact hmoves.tail (push_moves _ _)

theorem resume_moves (s : Session) (ok : Bool) (draws : FrameDraws) (c : PendingCall) :
    Moves evp s₀ ev s (s.resume evp ok draws c) := by
  cases c with
  | write h rest =>
    dsimp only [resume]
    split
    · exact writeNext_moves s h rest draws
    · unfold failWrite
      split
      · exact .refl
      · next e he => exact .single (.touch e.retired he (Stream.sameWrite_closeWrite _))
  | closeStream h => exact retireStream_moves s h
  | releaseStream h => exact (retireStream_moves s h).tail (.freed h)
  | close => exact .single (scheduleTeardown_moves s)

/-- A stream is created, or only the table may have grown. -/
theorem createStream_cases (s : Session) (id : UInt32) (allocs : StreamAllocs) :
    (∃ t, (∀ k, t.lookup k = s.streams.lookup k)
        ∧ s.createStream id allocs = ({ s with streams := t }, none))
      ∨ ∃ st t, initStream s.config id = .ok st
        ∧ s.streams.insertActive id s.heap.length allocs.table = (t, true)
        ∧ s.createStream id allocs = ({ s with
            streams := t
            heap := s.heap ++ [some ⟨st, false⟩]
            activeStreamCount := s.activeStreamCount + 1 }, some s.heap.length) := by
  unfold createStream
  split
  · exact Or.inl ⟨s.streams, fun _ => rfl, rfl⟩
  · split
    · exact Or.inl ⟨s.streams, fun _ => rfl, rfl⟩
    · next st hst =>
      split
      · exact Or.inl ⟨s.streams, fun _ => rfl, rfl⟩
      · have hcases := s.streams.insertActive_cases id s.heap.length allocs.table
        split
        · next t hins =>
          rw [hins] at hcases
          rcases hcases with ⟨_, _, hlook⟩ | ⟨hc, _⟩
          · exact Or.inl ⟨t, hlook, rfl⟩
          · cases hc
        · next t hins => exact Or.inr ⟨st, t, hst, hins, rfl⟩

theorem openStream_moves (s : Session) (allocs : StreamAllocs) :
    Moves evp s (.openStream allocs) s (s.openStream allocs) := by
  unfold openStream
  split
  · exact .refl
  · rcases createStream_cases { s with nextStreamId := s.nextStreamId + 1 } s.nextStreamId allocs with
      ⟨t, hlook, heq⟩ | ⟨st, t, hst, hins, heq⟩
    · rw [heq]
      exact .single (.drew rfl rfl hlook)
    · rw [heq]
      exact .head (.opened rfl rfl hst hins)
        (.single (.untracked ⟨rfl, rfl, rfl, rfl, rfl, rfl, rfl, rfl, id⟩))

theorem feed_moves (s : Session) (h : StreamHandle) {frame : Frame} (allocs : FeedAllocs)
    (hin : s₀.inbound evp ev = some frame)
    (hlive : s₀.streams.lookup frame.streamId ≠ some .tombstone) :
    Moves evp s₀ ev s (s.feed h frame allocs) := by
  unfold feed
  split
  · exact .refl
  · next e he =>
    have hfed : Moves evp s₀ ev s ((s.setEntry h
        { e with stream := (e.stream.feedFrame frame allocs).1 }).callback (.fed frame.streamId)) :=
      (ReflTransGen.single (.touch e.retired he (Stream.sameWrite_feedFrame _ _ _))).tail
        (.routed hin hlive rfl)
    dsimp only
    split
    · exact hfed
    · exact hfed.trans (retireStream_moves _ h)

theorem onEnvelope_moves (s : Session) (bytes : List UInt8) (allocs : StreamAllocs)
    (feedAllocs : FeedAllocs) : Moves evp s (.envelope bytes allocs feedAllocs) s
      (s.onEnvelope evp bytes allocs feedAllocs) := by
  unfold onEnvelope
  split
  · exact .refl
  · next hopen =>
    split
    · exact .refl
    · next frame hframe =>
      split
      · exact passiveClose_moves s
      · next hclosing =>
        have hin : s.inbound evp (.envelope bytes allocs feedAllocs) = some frame := by
          rw [inbound, if_neg hopen, hframe, Option.filter_some, if_pos (decide_eq_true hclosing)]
        split
        · exact .refl
        · next h hlook =>
          have hlive : s.streams.lookup frame.streamId ≠ some .tombstone := by
            rw [hlook]
            exact fun hc => by cases hc
          exact (feed_moves s h feedAllocs hin hlive).tail (.routed hin hlive rfl)
        · next hlook =>
          have hlive : s.streams.lookup frame.streamId ≠ some .tombstone := by
            rw [hlook]
            exact fun hc => by cases hc
          rcases createStream_cases s frame.streamId allocs with
            ⟨t, hsame, heq⟩ | ⟨st, t, hst, hins, heq⟩
          · rw [heq]
            exact .single (.regrown hsame)
          · rw [heq]
            refine ReflTransGen.trans ?_
              ((feed_moves _ _ feedAllocs hin hlive).tail (.routed hin hlive rfl))
            exact .head (.accepted rfl hin hlook hst hins)
              (.single (.untracked ⟨rfl, rfl, rfl, rfl, rfl, rfl, rfl, rfl, id⟩))

theorem teardown_moves (s : Session) : Moves evp s₀ ev s s.teardown := by
  unfold teardown
  split
  · exact .refl
  · exact .head (b := { s with teardownTimer := .sweep })
      (.untracked ⟨rfl, rfl, rfl, rfl, rfl, rfl, rfl, rfl, id⟩) (.single .brokenUp)
  · exact .head (b := { s with teardownTimer := .idle })
      (.untracked ⟨rfl, rfl, rfl, rfl, rfl, rfl, rfl, rfl, id⟩) (freeAllActiveStreams_moves _)

theorem destroy_moves (s : Session) : Moves evp s₀ ev s s.destroy := by
  have hclose : Move evp s₀ ev s { s.closeInternal with teardownTimer := .idle } :=
    .untracked ⟨rfl, rfl, rfl, rfl, rfl, rfl, rfl, rfl, fun _ => rfl⟩
  exact (ReflTransGen.head hclose (freeAllActiveStreams_moves _)).tail
    (.untracked ⟨rfl, rfl, rfl, rfl, rfl, rfl, rfl, rfl, id⟩)

/-- What an event can do. -/
theorem step_moves (evp : Evp) (s : Session) (ev : SessionEv) :
    Moves evp s ev s (s.step evp ev) := by
  unfold step
  split
  · exact .refl
  · cases ev with
    | openStream allocs => exact openStream_moves s allocs
    | write h bs draws => exact writeStream_moves s h bs draws
    | read h outCap =>
      dsimp only [readStream]
      split
      · exact .refl
      · next e he => exact .single (.touch e.retired he (Stream.sameWrite_read _ _))
    | closeStream h env => exact closeStream_moves s h env
    | releaseStream h env =>
      dsimp only
      split
      · exact .refl
      · exact releaseStream_moves s h env
    | close env => exact close_moves s env
    | envelope bytes allocs feedAllocs => exact onEnvelope_moves s bytes allocs feedAllocs
    | sinkReturn ok draws =>
      dsimp only
      split
      · exact .refl
      · next c cs _ =>
        exact .head (b := { s with calls := cs })
          (.untracked ⟨rfl, rfl, rfl, rfl, rfl, rfl, rfl, rfl, id⟩) (resume_moves _ ok draws c)
    | poolBroken => exact passiveClose_moves s
    | inactivityTimer env =>
      dsimp only
      split
      · refine .head (b := { s with inactivityTimer := false })
          (.untracked ⟨rfl, rfl, rfl, rfl, rfl, rfl, rfl, rfl, id⟩) ?_
        unfold checkTimeout
        split
        · exact close_moves _ env
        · exact .refl
      · exact .refl
    | teardownTimer =>
      dsimp only
      split
      · exact teardown_moves s
      · exact .refl
    | destroy =>
      dsimp only
      split
      · exact destroy_moves s
      · exact .refl

end Steps

/-- What every move keeps, every event keeps. -/
theorem step_invariant {evp : Evp} {s : Session} {ev : SessionEv} {P : Session → Prop}
    (hmove : ∀ s₁ s₂, Move evp s ev s₁ s₂ → P s₁ → P s₂) (hs : P s) : P (s.step evp ev) :=
  (step_moves evp s ev).invariant hmove hs

end Session

end Cloak
